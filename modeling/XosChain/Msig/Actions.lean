import XosChain.Account.Authority
import XosChain.Governance.Packing
import XosChain.Token.Ledger

namespace XosChain.Msig

open Lib Raw Token.Tables Msig

section

def readInt (n : ℕ) (ds : Bytes) : Result (ℕ × Bytes) := do
  eosioAssert (n ≤ ds.length) "read"
  pure (ofLittleEndian (ds.take n), ds.drop n)

def readGroups (shift : UInt32) (v : UInt32) : Bytes → Result (UInt32 × Bytes)
  | [] => throw ⟨.eosioAssertMessageException, "assertion failure with message: get"⟩
  | b :: ds =>
    let v := v ||| ((b &&& 0x7f).toUInt32 <<< shift)
    if b &&& 0x80 ≠ 0 then readGroups (shift + 7) v ds else pure (v, ds)

def readUnsignedInt (ds : Bytes) : Result (UInt32 × Bytes) := readGroups 0 0 ds

def readLevel (ds : Bytes) : Result (PermissionLevel × Bytes) := do
  let (actor, ds) ← readInt 8 ds
  let (permission, ds) ← readInt 8 ds
  pure (⟨actor, permission⟩, ds)

def readLevels : ℕ → Bytes → Result (List PermissionLevel × Bytes)
  | 0, ds => pure ([], ds)
  | n + 1, ds => do
    let (level, ds) ← readLevel ds
    let (levels, ds) ← readLevels n ds
    pure (level :: levels, ds)

structure TransactionHeader where
  expiration : ℕ
  refBlockNum : ℕ
  refBlockPrefix : ℕ
  netUsageWords : UInt32
  maxCpuUsageMs : ℕ
  delaySec : UInt32

def readHeader (ds : Bytes) : Result TransactionHeader := do
  let (expiration, ds) ← readInt 4 ds
  let (refBlockNum, ds) ← readInt 2 ds
  let (refBlockPrefix, ds) ← readInt 4 ds
  let (netUsageWords, ds) ← readUnsignedInt ds
  let (maxCpuUsageMs, ds) ← readInt 1 ds
  let (delaySec, _) ← readUnsignedInt ds
  pure ⟨expiration, refBlockNum, refBlockPrefix, netUsageWords, maxCpuUsageMs, delaySec⟩

structure Proposal where
  proposer : AccountName
  proposalName : ℕ
  requested : List PermissionLevel
  trx : Bytes
  deriving DecidableEq

def readProposal (data : Bytes) : Result Proposal := do
  let (proposer, ds) ← readInt 8 data
  let (proposalName, ds) ← readInt 8 ds
  let (size, ds) ← readUnsignedInt ds
  let (requested, trx) ← readLevels size.toNat ds
  pure ⟨proposer, proposalName, requested, trx⟩

def packLevel (l : PermissionLevel) : Bytes := littleEndian 8 l.actor ++ littleEndian 8 l.permission

def packLevels (ls : List PermissionLevel) : Bytes := packUnsignedInt ls.length ++ ls.flatMap packLevel

end

abbrev Key := AccountName ×ₗ ℕ

structure ApprovalsInfo where
  requested : List PermissionLevel
  provided : List PermissionLevel := []
  deriving DecidableEq

structure Tables where
  proposals : FlatMap Key Bytes := FlatMap.empty
  approvals : FlatMap Key ApprovalsInfo := FlatMap.empty

structure Env where
  now : ℕ
  hasAuth : AccountName → Bool
  hasLevel : PermissionLevel → Bool
  checkTransactionAuthorization : Bytes → Bytes → Result Int32
  sendDeferred : ℕ → AccountName → Bytes → Result Unit := fun _ _ _ => pure ()

structure Deferred where
  senderId : ℕ
  payer : AccountName
  trx : Bytes
  deriving DecidableEq

def Env.requireAuth (env : Env) (account : AccountName) : Result Unit :=
  eosAssert (env.hasAuth account = true) .missingAuthException s!"missing authority of {account}"

def Env.requireLevel (env : Env) (level : PermissionLevel) : Result Unit :=
  eosAssert (env.hasLevel level = true) .missingAuthException
    s!"missing authority of {level.actor}/{level.permission}"

section

variable (env : Env) (t : Tables)

def propose (data : Bytes) : Result Tables := do
  let p ← readProposal data
  let header ← readHeader p.trx
  env.requireAuth p.proposer
  eosioAssert (header.expiration ≥ env.now) "transaction expired"
  eosioAssert (t.proposals.find? (toLex (p.proposer, p.proposalName)) = none) "proposal with the same name exists"
  let res ← env.checkTransactionAuthorization p.trx (packLevels p.requested)
  eosioAssert (res > 0) "transaction authorization failed"
  eosioAssert (t.approvals.find? (toLex (p.proposer, p.proposalName)) = none)
    "could not insert object, most likely a uniqueness constraint was violated"
  pure { proposals := t.proposals.set (toLex (p.proposer, p.proposalName)) p.trx
         approvals := t.approvals.set (toLex (p.proposer, p.proposalName)) { requested := p.requested } }

def approve (proposer : AccountName) (proposalName : ℕ) (level : PermissionLevel) : Result Tables := do
  env.requireLevel level
  let apps ← getRow t.approvals (toLex (proposer, proposalName)) "proposal not found"
  eosioAssert (level ∈ apps.requested) "approval is not on the list of requested approvals"
  let apps := ⟨apps.requested.erase level, apps.provided ++ [level]⟩
  pure { t with approvals := t.approvals.set (toLex (proposer, proposalName)) apps }

def unapprove (proposer : AccountName) (proposalName : ℕ) (level : PermissionLevel) : Result Tables := do
  env.requireLevel level
  let apps ← getRow t.approvals (toLex (proposer, proposalName)) "proposal not found"
  eosioAssert (level ∈ apps.provided) "no approval previously granted"
  let apps := ⟨apps.requested ++ [level], apps.provided.erase level⟩
  pure { t with approvals := t.approvals.set (toLex (proposer, proposalName)) apps }

def mayCancel (proposer canceler : AccountName) (packed : Bytes) : Result Unit :=
  if canceler ≠ proposer then do
    let header ← readHeader packed
    eosioAssert (header.expiration < env.now) "cannot cancel until expiration"
  else pure ()

def removed (k : Key) : Tables := { proposals := t.proposals.erase k, approvals := t.approvals.erase k }

def cancel (proposer : AccountName) (proposalName : ℕ) (canceler : AccountName) : Result Tables := do
  env.requireAuth canceler
  let prop ← getRow t.proposals (toLex (proposer, proposalName)) "proposal not found"
  mayCancel env proposer canceler prop
  let _apps ← getRow t.approvals (toLex (proposer, proposalName)) "proposal not found"
  pure (removed t (toLex (proposer, proposalName)))

def exec (proposer : AccountName) (proposalName : ℕ) (executer : AccountName) : Result (Tables × Deferred) := do
  env.requireAuth executer
  let prop ← getRow t.proposals (toLex (proposer, proposalName)) "proposal not found"
  let apps ← getRow t.approvals (toLex (proposer, proposalName)) "proposal not found"
  let header ← readHeader prop
  eosioAssert (header.expiration ≥ env.now) "transaction expired"
  let res ← env.checkTransactionAuthorization prop (packLevels apps.provided)
  eosioAssert (res > 0) "transaction authorization failed"
  let sent := ⟨(proposer <<< 64) ||| proposalName, executer, prop⟩
  env.sendDeferred sent.senderId sent.payer sent.trx
  pure (removed t (toLex (proposer, proposalName)), sent)

end

inductive Action where
  | propose (data : Bytes)
  | approve (proposer : AccountName) (proposalName : ℕ) (level : PermissionLevel)
  | unapprove (proposer : AccountName) (proposalName : ℕ) (level : PermissionLevel)
  | cancel (proposer : AccountName) (proposalName : ℕ) (canceler : AccountName)
  | exec (proposer : AccountName) (proposalName : ℕ) (executer : AccountName)
  deriving DecidableEq

def Tables.apply (env : Env) (t : Tables) : Action → Result (Tables × List Deferred)
  | .propose data => do pure (← propose env t data, [])
  | .approve proposer proposalName level => do pure (← approve env t proposer proposalName level, [])
  | .unapprove proposer proposalName level => do pure (← unapprove env t proposer proposalName level, [])
  | .cancel proposer proposalName canceler => do pure (← cancel env t proposer proposalName canceler, [])
  | .exec proposer proposalName executer => do
    let (t, sent) ← exec env t proposer proposalName executer
    pure (t, [sent])

inductive Run : List (Env × Action) → Tables → Prop
  | start : Run [] {}
  | step {history : List (Env × Action)} {t t' : Tables} {sent : List Deferred} (env : Env) (a : Action)
      (h : Run history t) (hs : t.apply env a = .ok (t', sent)) : Run ((env, a) :: history) t'

end XosChain.Msig
