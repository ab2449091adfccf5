import Mathlib
import XosChain.Account.Checker
import XosChain.Objects

namespace XosChain

open Lib Config

namespace Config

def newaccountName : ActionName := 11148770977341390848
def setcodeName : ActionName := 14029427681804681216
def setabiName : ActionName := 14029385431137648640
def updateauthName : ActionName := 15371467950649982976
def deleteauthName : ActionName := 5378050746259030016
def linkauthName : ActionName := 10063015651234021376
def unlinkauthName : ActionName := 15340080295291076608
def canceldelayName : ActionName := 4730614990712192000

def unlinkableNames : List ActionName :=
  [updateauthName, deleteauthName, linkauthName, unlinkauthName, canceldelayName]

end Config

def linkKey (account code : AccountName) (type : ActionName) : LinkKey := toLex (account, toLex (code, type))

abbrev Permission := ℕ × PermissionObject

namespace Db

def findOwned (db : Db) (owner : AccountName) (name : PermissionName) : Option Permission :=
  db.permissions.entries.find? (fun e => e.2.owner = owner ∧ e.2.name = name)

def findPermission (db : Db) (level : PermissionLevel) : Result (Option Permission) := do
  eosAssert (level.actor ≠ 0 ∧ level.permission ≠ 0) .invalidPermission "Invalid permission"
  pure (db.findOwned level.actor level.permission)

def getPermission (db : Db) (level : PermissionLevel) : Result Permission := do
  match ← db.findPermission level with
  | some p => pure p
  | none => .error ⟨.permissionQueryException, "Failed to retrieve permission"⟩

def createPermission (db : Db) (account : AccountName) (name : PermissionName) (parent : ℕ) (auth : Authority)
    (creationTime : ℕ) : Result (ℕ × Db) :=
  if (db.findOwned account name).isSome then
    .error ⟨.logicError, "could not insert object, most likely a uniqueness constraint was violated"⟩
  else
    pure (db.nextPermissionId,
      { db with
        permissions := db.permissions.set db.nextPermissionId
          { parent, owner := account, name, lastUpdated := creationTime, auth }
        nextPermissionId := db.nextPermissionId + 1 })

def modifyPermission (db : Db) (p : Permission) (auth : Authority) (pendingBlockTime : ℕ) : Db :=
  { db with permissions := db.permissions.set p.1 { p.2 with auth, lastUpdated := pendingBlockTime } }

def removePermission (db : Db) (p : Permission) : Result Db := do
  eosAssert (∀ e ∈ db.permissions.entries, e.2.parent ≠ p.1) .actionValidateException
    "Cannot remove a permission which has children. Remove the children first."
  pure { db with permissions := db.permissions.erase p.1 }

def climb (db : Db) (id : ℕ) : ℕ → ℕ → Option Bool
  | 0, _ => none
  | fuel + 1, at_ =>
    match db.permissions.find? at_ with
    | none => none
    | some parent =>
      if id = parent.parent then some true
      else if parent.parent = 0 then some false
      else climb db id fuel parent.parent

def satisfiesWithin (db : Db) (fuel : ℕ) (this other : Permission) : Option Bool :=
  if this.2.owner ≠ other.2.owner then some false
  else if this.1 = other.1 ∨ this.1 = other.2.parent then some true
  else db.climb this.1 fuel other.2.parent

def satisfies (db : Db) (this other : Permission) : Option Bool := db.satisfiesWithin db.permissions.size this other

def requireSatisfies (db : Db) (auth : PermissionLevel) (min : Permission) (what : String) : Result Unit := do
  let p ← db.getPermission auth
  match db.satisfies p min with
  | some b => eosAssert (b = true) .irrelevantAuthException what
  | none => .error ⟨.undefinedBehavior, "permission_object::satisfies does not return"⟩

def lookupLinkedPermission (db : Db) (authorizer scope : AccountName) (act : ActionName) : Option PermissionName :=
  match db.links.find? (linkKey authorizer scope act) with
  | some required => some required
  | none => db.links.find? (linkKey authorizer scope 0)

def lookupMinimumPermission (db : Db) (authorizer scope : AccountName) (act : ActionName) :
    Result (Option PermissionName) := do
  eosAssert (scope = systemAccountName → act ∉ unlinkableNames) .unlinkableMinPermissionAction
    "cannot call lookup_minimum_permission on native actions that are not allowed to be linked to minimum permissions"
  match db.lookupLinkedPermission authorizer scope act with
  | none => pure (some activeName)
  | some linked => pure (if linked = eosioAnyName then none else some linked)

def singleAuth (auths : List PermissionLevel) (what : String) : Result PermissionLevel :=
  match auths with
  | [auth] => pure auth
  | _ => .error ⟨.irrelevantAuthException, what⟩

def updateauthMinimum (db : Db) (update : UpdateAuth) : Result Permission := do
  match ← db.findPermission ⟨update.account, update.permission⟩ with
  | some p => pure p
  | none => db.getPermission ⟨update.account, update.parent⟩

def checkUpdateauthAuthorization (db : Db) (update : UpdateAuth) (auths : List PermissionLevel) : Result Unit := do
  let auth ← singleAuth auths "updateauth action should only have one declared authorization"
  eosAssert (auth.actor = update.account) .irrelevantAuthException
    "the owner of the affected permission needs to be the actor of the declared authorization"
  let min ← db.updateauthMinimum update
  db.requireSatisfies auth min "updateauth action declares irrelevant authority"

def checkDeleteauthAuthorization (db : Db) (del : DeleteAuth) (auths : List PermissionLevel) : Result Unit := do
  let auth ← singleAuth auths "deleteauth action should only have one declared authorization"
  eosAssert (auth.actor = del.account) .irrelevantAuthException
    "the owner of the permission to delete needs to be the actor of the declared authorization"
  let min ← db.getPermission ⟨del.account, del.permission⟩
  db.requireSatisfies auth min "updateauth action declares irrelevant authority"

def requireLinked (db : Db) (auth : PermissionLevel) (account : AccountName) (linked : Option PermissionName)
    (what : String) : Result Unit := do
  match linked with
  | none => pure ()
  | some name =>
    let min ← db.getPermission ⟨account, name⟩
    db.requireSatisfies auth min what

def checkLinkauthAuthorization (db : Db) (link : LinkAuth) (auths : List PermissionLevel) : Result Unit := do
  let auth ← singleAuth auths "link action should only have one declared authorization"
  eosAssert (auth.actor = link.account) .irrelevantAuthException
    "the owner of the linked permission needs to be the actor of the declared authorization"
  eosAssert (link.type ≠ updateauthName) .actionValidateException
    "Cannot link eosio::updateauth to a minimum permission"
  eosAssert (link.type ≠ deleteauthName) .actionValidateException
    "Cannot link eosio::deleteauth to a minimum permission"
  eosAssert (link.type ≠ linkauthName) .actionValidateException
    "Cannot link eosio::linkauth to a minimum permission"
  eosAssert (link.type ≠ unlinkauthName) .actionValidateException
    "Cannot link eosio::unlinkauth to a minimum permission"
  eosAssert (link.type ≠ canceldelayName) .actionValidateException
    "Cannot link eosio::canceldelay to a minimum permission"
  let linked ← db.lookupMinimumPermission link.account link.code link.type
  db.requireLinked auth link.account linked "link action declares irrelevant authority"

def checkUnlinkauthAuthorization (db : Db) (unlink : UnlinkAuth) (auths : List PermissionLevel) : Result Unit := do
  let auth ← singleAuth auths "unlink action should only have one declared authorization"
  eosAssert (auth.actor = unlink.account) .irrelevantAuthException
    "the owner of the linked permission needs to be the actor of the declared authorization"
  match db.lookupLinkedPermission unlink.account unlink.code unlink.type with
  | none => .error ⟨.transactionException, "cannot unlink non-existent permission link of account"⟩
  | some name =>
    db.requireLinked auth unlink.account (if name = eosioAnyName then none else some name)
      "unlink action declares irrelevant authority"

def findDelayed (db : Db) (trxId : TransactionId) : Option GeneratedTransaction :=
  (db.generated.entries.find? (fun e => e.2.trxId = trxId ∧ (ofLex e.1).1 = 0)).map Prod.snd

def checkCanceldelayAuthorization (db : Db) (cancel : CancelDelay) (auths : List PermissionLevel) : Result ℕ := do
  let auth ← singleAuth auths "canceldelay action should only have one declared authorization"
  let min ← db.getPermission cancel.cancelingAuth
  db.requireSatisfies auth min "canceldelay action declares irrelevant authority"
  match db.findDelayed cancel.trxId with
  | none => .error ⟨.txNotFound, "cannot cancel trx_id, there is no deferred transaction with that transaction id"⟩
  | some g =>
    eosAssert (∃ act ∈ g.packedTrx.actions, cancel.cancelingAuth ∈ act.authorization) .actionValidateException
      "canceling_auth in canceldelay action was not found as authorization in the original delayed transaction"
    pure (g.delayUntil - g.published)

end Db

namespace Action

def wrongData : Thrown := ⟨.unpackException, "the action's data does not unpack to the expected type"⟩

def asNewaccount (act : Action) : Result NewAccount :=
  match act.data with
  | .newaccount d => pure d
  | _ => .error wrongData

def asSetcode (act : Action) : Result SetCode :=
  match act.data with
  | .setcode d => pure d
  | _ => .error wrongData

def asSetabi (act : Action) : Result SetAbi :=
  match act.data with
  | .setabi d => pure d
  | _ => .error wrongData

def asUpdateauth (act : Action) : Result UpdateAuth :=
  match act.data with
  | .updateauth d => pure d
  | _ => .error wrongData

def asDeleteauth (act : Action) : Result DeleteAuth :=
  match act.data with
  | .deleteauth d => pure d
  | _ => .error wrongData

def asLinkauth (act : Action) : Result LinkAuth :=
  match act.data with
  | .linkauth d => pure d
  | _ => .error wrongData

def asUnlinkauth (act : Action) : Result UnlinkAuth :=
  match act.data with
  | .unlinkauth d => pure d
  | _ => .error wrongData

def asCanceldelay (act : Action) : Result CancelDelay :=
  match act.data with
  | .canceldelay d => pure d
  | _ => .error wrongData

end Action

namespace Db

def checkSpecial (db : Db) (act : Action) (delay : ℕ) : Result (Option ℕ) :=
  if act.account ≠ systemAccountName then pure none
  else if act.name = updateauthName then do
    db.checkUpdateauthAuthorization (← act.asUpdateauth) act.authorization
    pure (some delay)
  else if act.name = deleteauthName then do
    db.checkDeleteauthAuthorization (← act.asDeleteauth) act.authorization
    pure (some delay)
  else if act.name = linkauthName then do
    db.checkLinkauthAuthorization (← act.asLinkauth) act.authorization
    pure (some delay)
  else if act.name = unlinkauthName then do
    db.checkUnlinkauthAuthorization (← act.asUnlinkauth) act.authorization
    pure (some delay)
  else if act.name = canceldelayName then do
    let cancelDelay ← db.checkCanceldelayAuthorization (← act.asCanceldelay) act.authorization
    pure (some (max delay cancelDelay))
  else pure none

def checkMinimum (db : Db) (act : Action) (declared : PermissionLevel) : Result Unit := do
  match ← db.lookupMinimumPermission declared.actor act.account act.name with
  | none => pure ()
  | some name =>
    let min ← db.getPermission ⟨declared.actor, name⟩
    db.requireSatisfies declared min "action declares irrelevant authority"

abbrev ToSatisfy := FlatMap (AccountName ×ₗ PermissionName) ℕ

def ToSatisfy.require (m : ToSatisfy) (declared : PermissionLevel) (delay : ℕ) : ToSatisfy :=
  match m.find? declared.key with
  | none => m.set declared.key delay
  | some before => if delay < before then m.set declared.key delay else m

def declare (db : Db) (act : Action) (special : Bool) (delay : ℕ) (m : ToSatisfy) (declared : PermissionLevel) :
    Result ToSatisfy := do
  if special then pure (m.require declared delay)
  else do
    db.checkMinimum act declared
    pure (m.require declared delay)

def checkAction (db : Db) (providedDelay : ℕ) (m : ToSatisfy) (act : Action) : Result ToSatisfy := do
  let special ← db.checkSpecial act providedDelay
  act.authorization.foldlM (db.declare act special.isSome (special.getD providedDelay)) m

def satisfyAll (checker : AuthorityChecker) (m : ToSatisfy) : Result (Finset PublicKey) :=
  m.entries.foldlM (fun used e => do
    let r := { checker with providedDelay := e.2 }.satisfied ⟨(ofLex e.1).1, (ofLex e.1).2⟩ used
    eosAssert (r.1 = true) .unsatisfiedAuthorization
      "transaction declares authority, but does not have signatures for it"
    pure r.2) ∅

def maximumDelay : ℕ := 2 ^ 63 - 1

def checker (db : Db) (ctx : Context) (keys : List PublicKey) (permissions : List PermissionLevel) (delay : ℕ) :
    AuthorityChecker where
  permissionToAuthority l := (db.getPermission l).toOption.map (·.2.auth)
  recursionDepthLimit := ctx.maxAuthorityDepth
  providedKeys := keys
  providedPermissions := permissions
  providedDelay := delay

def checkAuthorization (db : Db) (ctx : Context) (actions : List Action) (providedKeys : List PublicKey)
    (providedPermissions : List PermissionLevel) (providedDelay : ℕ) (allowUnusedKeys : Bool) : Result Unit := do
  let delay := if ctx.maxTransactionDelay * 1000000 ≤ providedDelay then maximumDelay else providedDelay
  let m ← actions.foldlM (db.checkAction delay) FlatMap.empty
  let used ← satisfyAll (db.checker ctx providedKeys providedPermissions delay) m
  eosAssert (allowUnusedKeys = true ∨ ∀ k ∈ providedKeys, k ∈ used) .txIrrelevantSig
    "transaction bears irrelevant signatures"

end Db

end XosChain
