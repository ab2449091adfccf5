import XosChain.Account.Authority
import XosChain.ResourceLimits.Manager

namespace XosChain

open Lib FlatMap

abbrev TransactionId := ℕ

structure NewAccount where
  creator : AccountName
  name : AccountName
  owner : Authority
  active : Authority
  deriving DecidableEq

structure SetCode where
  account : AccountName
  vmtype : ℕ := 0
  vmversion : ℕ := 0
  code : Bytes
  deriving DecidableEq

structure SetAbi where
  account : AccountName
  abi : Bytes
  deriving DecidableEq

structure UpdateAuth where
  account : AccountName
  permission : PermissionName
  parent : PermissionName
  auth : Authority
  deriving DecidableEq

structure DeleteAuth where
  account : AccountName
  permission : PermissionName
  deriving DecidableEq

structure LinkAuth where
  account : AccountName
  code : AccountName
  type : ActionName
  requirement : PermissionName
  deriving DecidableEq

structure UnlinkAuth where
  account : AccountName
  code : AccountName
  type : ActionName
  deriving DecidableEq

structure CancelDelay where
  cancelingAuth : PermissionLevel
  trxId : TransactionId
  deriving DecidableEq

inductive ActionData where
  | newaccount (d : NewAccount)
  | setcode (d : SetCode)
  | setabi (d : SetAbi)
  | updateauth (d : UpdateAuth)
  | deleteauth (d : DeleteAuth)
  | linkauth (d : LinkAuth)
  | unlinkauth (d : UnlinkAuth)
  | canceldelay (d : CancelDelay)
  | bytes (d : Bytes)
  deriving DecidableEq

structure Action where
  account : AccountName
  name : ActionName
  authorization : List PermissionLevel
  data : ActionData
  deriving DecidableEq

structure Transaction where
  expiration : ℕ := 0
  refBlockNum : ℕ := 0
  refBlockPrefix : ℕ := 0
  maxNetUsageWords : ℕ := 0
  maxCpuUsageMs : ℕ := 0
  delaySec : ℕ := 0
  contextFreeActions : List Action := []
  actions : List Action := []
  deriving DecidableEq

structure AccountObject where
  privileged : Bool := false
  codeVersion : Digest := 0
  code : Bytes := []
  abi : Bytes := []
  deriving DecidableEq

structure PermissionObject where
  parent : ℕ := 0
  owner : AccountName := 0
  name : PermissionName := 0
  lastUpdated : ℕ := 0
  auth : Authority := {}
  deriving DecidableEq

structure GeneratedTransaction where
  trxId : TransactionId
  payer : AccountName
  delayUntil : ℕ
  expiration : ℕ
  published : ℕ
  packedTrx : Transaction
  deriving DecidableEq

structure TableIdObject where
  code : AccountName
  scope : ℕ
  table : ℕ
  payer : AccountName
  count : ℕ := 0
  deriving DecidableEq

structure KeyValueObject where
  payer : AccountName
  value : Bytes
  deriving DecidableEq

inductive IndexType where
  | index64
  | index128
  | index256
  | indexDouble
  | indexLongDouble
  deriving DecidableEq

structure IndexObject where
  payer : AccountName
  secondaryKey : ℕ
  deriving DecidableEq

namespace Config

def overheadPerRowPerIndex : ℕ := 32
def overheadPerAccount : ℕ := 2 * 1024
def setcodeMultiplier : ℕ := 10

def sharedAuthoritySize : ℕ := billableSize (3 * 16 + 4)
def permissionObjectSize : ℕ := billableSize (sharedAuthoritySize + 64 + 5 * overheadPerRowPerIndex)
def permissionLinkObjectSize : ℕ := billableSize (40 + overheadPerRowPerIndex * 3)
def generatedTransactionObjectSize : ℕ := billableSize (96 + 4 + overheadPerRowPerIndex * 5)
def tableIdObjectSize : ℕ := billableSize (44 + overheadPerRowPerIndex * 2)
def keyValueObjectSize : ℕ := billableSize (32 + 8 + 4 + overheadPerRowPerIndex * 2)

def indexObjectSize : IndexType → ℕ
  | .index64 | .indexDouble => billableSize (24 + 8 + overheadPerRowPerIndex * 3)
  | .index128 | .indexLongDouble => billableSize (24 + 16 + overheadPerRowPerIndex * 3)
  | .index256 => billableSize (24 + 32 + overheadPerRowPerIndex * 3)

end Config

abbrev LinkKey := AccountName ×ₗ AccountName ×ₗ ActionName
abbrev SenderKey := AccountName ×ₗ ℕ
abbrev RowKey := ℕ ×ₗ ℕ

structure Db where
  accounts : FlatMap AccountName AccountObject := empty
  permissions : FlatMap ℕ PermissionObject := empty
  nextPermissionId : ℕ := 0
  links : FlatMap LinkKey PermissionName := empty
  generated : FlatMap SenderKey GeneratedTransaction := empty
  tables : FlatMap ℕ TableIdObject := empty
  nextTableId : ℕ := 0
  keyValues : FlatMap RowKey KeyValueObject := empty
  secondaries : IndexType → FlatMap RowKey IndexObject := fun _ => empty
  resources : ResourceLimits.Db := {}

structure Context where
  pendingBlockTime : ℕ := 0
  producing : Bool := false
  allowRamBillingInNotify : Bool := false
  keyBlacklist : List PublicKey := []
  maxTransactionDelay : ℕ := 45 * 24 * 3600
  maxAuthorityDepth : ℕ := 6
  deferredTrxExpirationWindow : ℕ := 10 * 60

end XosChain
