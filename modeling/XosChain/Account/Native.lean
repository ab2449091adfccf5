import XosChain.Deferred.Schedule

namespace XosChain

open Lib ResourceLimits Config

structure Runtime where
  packing : Packing
  codeHash : Bytes → Digest
  checkCode : Bytes → Result Unit

def Runtime.validateCode (rt : Runtime) (code : Bytes) : Result Unit :=
  if code = [] then pure () else rt.checkCode code

namespace Db

def requireExists (db : Db) (p : PermissionLevel) : Result Unit := do
  eosAssert (db.accounts.contains p.actor = true) .actionValidateException "account does not exist"
  if p.permission = ownerName ∨ p.permission = activeName ∨ p.permission = eosioCodeName then
    pure ()
  else
    match db.getPermission p with
    | .ok _ => pure ()
    | .error _ => .error ⟨.actionValidateException, "permission does not exist"⟩

def validateAuthorityPrecondition (db : Db) (ctx : Context) (auth : Authority) : Result Unit := do
  for a in auth.accounts do
    db.requireExists a.permission
  eosAssert (ctx.producing = true → ∀ k ∈ auth.keys, k.key ∉ ctx.keyBlacklist) .keyBlacklistException
    "public key is on the key blacklist"

def permissionSize (auth : Authority) : ℤ := (permissionObjectSize + auth.getBillableSize : ℕ)

def establish (db : Db) (name : AccountName) (owner active : Authority) (creationTime : ℕ) : Result Db := do
  let (ownerId, db) ← db.createPermission name ownerName 0 owner creationTime
  let (_, db) ← db.createPermission name activeName ownerId active creationTime
  let resources ← db.resources.initializeAccount name
  addRamUsage { db with resources } name (overheadPerAccount + permissionSize owner + permissionSize active)

def applyEosioNewaccount (db : Db) (ctx : Context) (authorization : List PermissionLevel) (create : NewAccount) :
    Result Db := do
  requireAuthorization authorization create.creator
  eosAssert create.owner.validate .actionValidateException "Invalid owner authority"
  eosAssert create.active.validate .actionValidateException "Invalid active authority"
  eosAssert (create.name ≠ 0) .actionValidateException "account name cannot be empty"
  eosAssert ((nameToString create.name).length ≤ 12) .actionValidateException
    "account names can only be 12 chars long"
  let creator ← getRow db.accounts create.creator
  eosAssert (creator.privileged = true ∨ hasEosioDot create.name = false) .actionValidateException
    "only privileged accounts can have names that start with 'eosio.'"
  eosAssert (db.accounts.contains create.name = false) .accountNameExistsException
    "Cannot create account, as that name is already taken"
  let db := { db with accounts := db.accounts.set create.name {} }
  db.validateAuthorityPrecondition ctx create.owner
  db.validateAuthorityPrecondition ctx create.active
  db.establish create.name create.owner create.active ctx.pendingBlockTime

def chargeDifference (db : Db) (account : AccountName) (oldSize newSize : ℕ) : Result Db :=
  if newSize ≠ oldSize then db.addRamUsage account (newSize - oldSize) else pure db

def applyEosioSetcode (db : Db) (rt : Runtime) (authorization : List PermissionLevel) (act : SetCode) :
    Result Db := do
  requireAuthorization authorization act.account
  eosAssert (act.vmtype = 0) .invalidContractVmType "code should be 0"
  eosAssert (act.vmversion = 0) .invalidContractVmVersion "version should be 0"
  rt.validateCode act.code
  let codeId := if act.code = [] then 0 else rt.codeHash act.code
  let account ← getRow db.accounts act.account
  eosAssert (account.codeVersion ≠ codeId) .setExactCode "contract is already running this version of code"
  let accounts := db.accounts.set act.account { account with codeVersion := codeId, code := act.code }
  chargeDifference { db with accounts } act.account (account.code.length * setcodeMultiplier)
    (act.code.length * setcodeMultiplier)

def applyEosioSetabi (db : Db) (authorization : List PermissionLevel) (act : SetAbi) : Result Db := do
  requireAuthorization authorization act.account
  let account ← getRow db.accounts act.account
  let accounts := db.accounts.set act.account { account with abi := act.abi }
  chargeDifference { db with accounts } act.account account.abi.length act.abi.length

def updateauthParent (db : Db) (update : UpdateAuth) : Result ℕ :=
  if update.permission ≠ ownerName then do
    let parent ← db.getPermission ⟨update.account, update.parent⟩
    pure parent.1
  else pure 0

def checkUpdateauth (db : Db) (ctx : Context) (update : UpdateAuth) : Result Unit := do
  eosAssert (update.permission ≠ 0) .actionValidateException "Cannot create authority with empty name"
  eosAssert (hasEosioDot update.permission = false) .actionValidateException
    "Permission names that start with 'eosio.' are reserved"
  eosAssert (update.permission ≠ update.parent) .actionValidateException "Cannot set an authority as its own parent"
  let _ ← getRow db.accounts update.account
  eosAssert update.auth.validate .actionValidateException "Invalid authority"
  eosAssert (update.permission = activeName → update.parent = ownerName) .actionValidateException
    "Cannot change active authority's parent from owner"
  eosAssert (update.permission = ownerName → update.parent = 0) .actionValidateException
    "Cannot change owner authority's parent"
  eosAssert (update.permission ≠ ownerName → update.parent ≠ 0) .actionValidateException
    "Only owner permission can have empty parent"
  eosAssert (∀ w ∈ update.auth.waits.getLast?, w.waitSec ≤ ctx.maxTransactionDelay) .actionValidateException
    "Cannot set delay longer than max_transacton_delay"
  db.validateAuthorityPrecondition ctx update.auth

def applyEosioUpdateauth (db : Db) (ctx : Context) (authorization : List PermissionLevel) (update : UpdateAuth) :
    Result Db := do
  requireAuthorization authorization update.account
  db.checkUpdateauth ctx update
  let permission ← db.findPermission ⟨update.account, update.permission⟩
  let parentId ← db.updateauthParent update
  match permission with
  | some p => do
    eosAssert (parentId = p.2.parent) .actionValidateException "Changing parent authority is not currently supported"
    (db.modifyPermission p update.auth ctx.pendingBlockTime).addRamUsage p.2.owner
      (permissionSize update.auth - permissionSize p.2.auth)
  | none => do
    let (_, db) ← db.createPermission update.account update.permission parentId update.auth ctx.pendingBlockTime
    db.addRamUsage update.account (permissionSize update.auth)

def applyEosioDeleteauth (db : Db) (authorization : List PermissionLevel) (remove : DeleteAuth) : Result Db := do
  requireAuthorization authorization remove.account
  eosAssert (remove.permission ≠ activeName) .actionValidateException "Cannot delete active authority"
  eosAssert (remove.permission ≠ ownerName) .actionValidateException "Cannot delete owner authority"
  eosAssert (∀ e ∈ db.links.entries, (ofLex e.1).1 = remove.account → e.2 ≠ remove.permission)
    .actionValidateException "Cannot delete a linked authority. Unlink the authority first."
  let permission ← db.getPermission ⟨remove.account, remove.permission⟩
  let db ← db.removePermission permission
  db.addRamUsage remove.account (-permissionSize permission.2.auth)

def setLink (db : Db) (link : LinkAuth) : Result Db :=
  match db.links.find? (linkKey link.account link.code link.type) with
  | some required => do
    eosAssert (required ≠ link.requirement) .actionValidateException
      "Attempting to update required authority, but new requirement is same as old"
    pure { db with links := db.links.set (linkKey link.account link.code link.type) link.requirement }
  | none =>
    addRamUsage { db with links := db.links.set (linkKey link.account link.code link.type) link.requirement }
      link.account permissionLinkObjectSize

def applyEosioLinkauth (db : Db) (authorization : List PermissionLevel) (link : LinkAuth) : Result Db := do
  eosAssert (link.requirement ≠ 0) .actionValidateException "Required permission cannot be empty"
  requireAuthorization authorization link.account
  eosAssert (db.accounts.contains link.account = true) .accountQueryException "Failed to retrieve account"
  eosAssert (db.accounts.contains link.code = true) .accountQueryException "Failed to retrieve code for account"
  eosAssert (link.requirement ≠ eosioAnyName → ∃ e ∈ db.permissions.entries, e.2.name = link.requirement)
    .permissionQueryException "Failed to retrieve permission"
  db.setLink link

def applyEosioUnlinkauth (db : Db) (authorization : List PermissionLevel) (unlink : UnlinkAuth) : Result Db := do
  requireAuthorization authorization unlink.account
  let key := linkKey unlink.account unlink.code unlink.type
  eosAssert (db.links.contains key = true) .actionValidateException
    "Attempting to unlink authority, but no link found"
  let db ← db.addRamUsage unlink.account (-permissionLinkObjectSize)
  pure { db with links := db.links.erase key }

def applyEosioCanceldelay (db : Db) (p : Packing) (authorization : List PermissionLevel) (cancel : CancelDelay) :
    Result Db := do
  requireAuthorization authorization cancel.cancelingAuth.actor
  db.cancelDeferredTransaction p (transactionIdToSenderId cancel.trxId) 0

def applyNative (db : Db) (rt : Runtime) (ctx : Context) (act : Action) : Result Db :=
  if act.name = newaccountName then do
    db.applyEosioNewaccount ctx act.authorization (← act.asNewaccount)
  else if act.name = setcodeName then do
    db.applyEosioSetcode rt act.authorization (← act.asSetcode)
  else if act.name = setabiName then do
    db.applyEosioSetabi act.authorization (← act.asSetabi)
  else if act.name = updateauthName then do
    db.applyEosioUpdateauth ctx act.authorization (← act.asUpdateauth)
  else if act.name = deleteauthName then do
    db.applyEosioDeleteauth act.authorization (← act.asDeleteauth)
  else if act.name = linkauthName then do
    db.applyEosioLinkauth act.authorization (← act.asLinkauth)
  else if act.name = unlinkauthName then do
    db.applyEosioUnlinkauth act.authorization (← act.asUnlinkauth)
  else if act.name = canceldelayName then do
    db.applyEosioCanceldelay rt.packing act.authorization (← act.asCanceldelay)
  else pure db

def createNativeAccount (db : Db) (name : AccountName) (account : AccountObject) (owner active : Authority)
    (initialTimestamp : ℕ) : Result Db := do
  let accounts ← createRow db.accounts name account
  establish { db with accounts } name owner active initialTimestamp

def initializeDatabase : Db :=
  { permissions := FlatMap.empty.set 0 {}
    nextPermissionId := 1
    resources := ResourceLimits.initializeDatabase }

def activeProducersAuthority : Authority :=
  { threshold := 1, accounts := [⟨⟨systemAccountName, activeName⟩, 1⟩] }

def genesis (initialKey : PublicKey) (abi : Bytes) (initialTimestamp : ℕ) : Result Db := do
  let systemAuth := Authority.ofKey initialKey
  let emptyAuthority : Authority := { threshold := 1 }
  let db ← initializeDatabase.createNativeAccount systemAccountName { privileged := true, abi } systemAuth
    systemAuth initialTimestamp
  let db ← db.createNativeAccount nullAccountName {} emptyAuthority emptyAuthority initialTimestamp
  let db ← db.createNativeAccount producersAccountName {} emptyAuthority activeProducersAuthority initialTimestamp
  let active ← db.getPermission ⟨producersAccountName, activeName⟩
  let (majority, db) ← db.createPermission producersAccountName majorityProducersPermissionName active.1
    activeProducersAuthority initialTimestamp
  let (_, db) ← db.createPermission producersAccountName minorityProducersPermissionName majority
    activeProducersAuthority initialTimestamp
  pure db

end Db

end XosChain
