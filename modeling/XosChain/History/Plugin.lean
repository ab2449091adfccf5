import XosChain.Account.Effects
import XosChain.Lib.Action

namespace XosChain.History

open Lib Config

structure PublicKeyHistory where
  publicKey : PublicKey
  name : AccountName
  permission : PermissionName
  deriving DecidableEq

structure AccountControlHistory where
  controlledAccount : AccountName
  controlledPermission : PermissionName
  controllingAccount : AccountName
  deriving DecidableEq

structure AccountHistory where
  account : AccountName
  actionSequenceNum : ℕ
  accountSequenceNum : ℤ
  deriving DecidableEq

structure Tables where
  actionSequenceNums : List ℕ := []
  accountHistories : List AccountHistory := []
  publicKeys : List PublicKeyHistory := []
  accountControls : List AccountControlHistory := []
  deriving DecidableEq

structure BaseActionTrace where
  receiver : AccountName
  globalSequence : ℕ
  act : Action
  deriving DecidableEq

inductive ActionTrace where
  | mk (base : BaseActionTrace) (inlineTraces : List ActionTrace)

abbrev Handler := EStateM Thrown Tables

def uniquenessViolated : Thrown :=
  ⟨.logicError, "could not insert object, most likely a uniqueness constraint was violated"⟩

def removeRange {ρ : Type} (inRange : ρ → Bool) : ℕ → List ρ → List ρ
  | 0, rows => rows
  | n + 1, rows => if rows.any inRange then removeRange inRange n (rows.eraseP inRange) else rows

def PublicKeyHistory.byAccountPermission (r : PublicKeyHistory) : AccountName ×ₗ PermissionName :=
  toLex (r.name, r.permission)

def AccountControlHistory.byControlledAuthority (r : AccountControlHistory) : AccountName ×ₗ PermissionName :=
  toLex (r.controlledAccount, r.controlledPermission)

def AccountHistory.byAccountActionSeq (r r' : AccountHistory) : Bool :=
  decide (r.account < r'.account ∨ r.account = r'.account ∧ r.accountSequenceNum ≤ r'.accountSequenceNum)

def removePublicKeys (account : AccountName) (permission : PermissionName) : Handler Unit :=
  modify fun t =>
    { t with
      publicKeys := removeRange (·.byAccountPermission = toLex (account, permission)) t.publicKeys.length t.publicKeys }

def removeAccountControls (account : AccountName) (permission : PermissionName) : Handler Unit :=
  modify fun t =>
    { t with
      accountControls := removeRange (·.byControlledAuthority = toLex (account, permission))
        t.accountControls.length t.accountControls }

def createPublicKey (row : PublicKeyHistory) : Handler Unit :=
  modify fun t => { t with publicKeys := t.publicKeys ++ [row] }

def createAccountControl (row : AccountControlHistory) : Handler Unit := do
  let t ← get
  if row ∈ t.accountControls then throw uniquenessViolated
  else set { t with accountControls := t.accountControls ++ [row] }

def addKeys (keys : List KeyWeight) (name : AccountName) (permission : PermissionName) : Handler Unit :=
  forM keys fun w => createPublicKey ⟨w.key, name, permission⟩

def addAccounts (controllingAccounts : List PermissionLevelWeight) (accountName : AccountName)
    (permission : PermissionName) : Handler Unit :=
  forM controllingAccounts fun w => createAccountControl ⟨accountName, permission, w.permission.actor⟩

def dataAs {δ : Type} (act : Action) (unpacked : Result δ) : Handler δ := do
  if act.account ≠ systemAccountName then
    throw ⟨.actionTypeException, "account is not consistent with action struct"⟩
  else
    match unpacked with
    | .ok d => pure d
    | .error e => throw e

def onSystemAction (act : Action) : Handler Unit :=
  if act.name = newaccountName then do
    let create ← dataAs act act.asNewaccount
    addKeys create.owner.keys create.name ownerName
    addAccounts create.owner.accounts create.name ownerName
    addKeys create.active.keys create.name activeName
    addAccounts create.active.accounts create.name activeName
  else if act.name = updateauthName then do
    let update ← dataAs act act.asUpdateauth
    removePublicKeys update.account update.permission
    removeAccountControls update.account update.permission
    addKeys update.auth.keys update.account update.permission
    addAccounts update.auth.accounts update.account update.permission
  else if act.name = deleteauthName then do
    let del ← dataAs act act.asDeleteauth
    removePublicKeys del.account del.permission
    removeAccountControls del.account del.permission
  else pure ()

structure FilterEntry where
  receiver : AccountName
  action : ActionName
  actor : AccountName
  deriving DecidableEq

structure Plugin where
  bypassFilter : Bool := false
  filterOn : List FilterEntry := []
  filterOut : List FilterEntry := []
  pastEnd : AccountHistory := ⟨0, 0, 0⟩

def listed (entries : List FilterEntry) (trace : BaseActionTrace) : Bool :=
  decide (⟨trace.receiver, 0, 0⟩ ∈ entries) || decide (⟨trace.receiver, trace.act.name, 0⟩ ∈ entries) ||
    trace.act.authorization.any fun a =>
      decide (⟨trace.receiver, 0, a.actor⟩ ∈ entries) || decide (⟨trace.receiver, trace.act.name, a.actor⟩ ∈ entries)

def listedFor (entries : List FilterEntry) (trace : BaseActionTrace) (actor : AccountName) : Bool :=
  decide (⟨trace.receiver, 0, 0⟩ ∈ entries) || decide (⟨trace.receiver, 0, actor⟩ ∈ entries) ||
    decide (⟨trace.receiver, trace.act.name, 0⟩ ∈ entries) || decide (⟨trace.receiver, trace.act.name, actor⟩ ∈ entries)

def createActionHistory (sequenceNum : ℕ) : Handler Unit := do
  let t ← get
  if sequenceNum ∈ t.actionSequenceNums then throw uniquenessViolated
  else set { t with actionSequenceNums := t.actionSequenceNums ++ [sequenceNum] }

def createAccountHistory (row : AccountHistory) : Handler Unit := do
  let t ← get
  if ∃ r ∈ t.accountHistories, r.account = row.account ∧ r.accountSequenceNum = row.accountSequenceNum then
    throw uniquenessViolated
  else set { t with accountHistories := t.accountHistories ++ [row] }

namespace Plugin

variable (P : Plugin)

def filter (trace : BaseActionTrace) : Bool := (P.bypassFilter || listed P.filterOn trace) && !listed P.filterOut trace

def accountSet (trace : BaseActionTrace) : List AccountName :=
  (trace.receiver :: (trace.act.authorization.map (·.actor)).filter fun a =>
    (P.bypassFilter || listedFor P.filterOn trace a) && !listedFor P.filterOut trace a).dedup.insertionSort (· ≤ ·)

-- On an empty index the iterator is the end of it, and what is read there is whatever stands in the memory.
def itrAt (rows : List AccountHistory) (n : AccountName) : AccountHistory :=
  let below := rows.filter fun r => !AccountHistory.byAccountActionSeq ⟨(n + 1) % 2 ^ 64, 0, 0⟩ r
  match below.find? fun r => below.all (·.byAccountActionSeq r) with
  | some r => r
  | none => (rows.find? fun r => rows.all r.byAccountActionSeq).getD P.pastEnd

def recordAccountAction (trace : BaseActionTrace) (n : AccountName) : Handler Unit := do
  let t ← get
  let itr := P.itrAt t.accountHistories n
  let asn := if itr.account = n then itr.accountSequenceNum + 1 else 0
  createAccountHistory ⟨n, trace.globalSequence, asn.bmod (2 ^ 32)⟩

def recordAction (trace : BaseActionTrace) : Handler Unit :=
  if P.filter trace then do
    createActionHistory trace.globalSequence
    forM (P.accountSet trace) (P.recordAccountAction trace)
  else pure ()

def onBaseTrace (trace : BaseActionTrace) : Handler Unit := do
  P.recordAction trace
  if trace.receiver = systemAccountName then onSystemAction trace.act else pure ()

mutual

def onActionTrace : ActionTrace → Handler Unit
  | .mk base inlineTraces => do
    P.onBaseTrace base
    onInlineTraces inlineTraces

def onInlineTraces : List ActionTrace → Handler Unit
  | [] => pure ()
  | iline :: rest => do
    onActionTrace iline
    onInlineTraces rest

end

def onAppliedTransaction (actionTraces : List ActionTrace) : Handler Unit := P.onInlineTraces actionTraces

def applied (actionTraces : List ActionTrace) (t : Tables) : Tables :=
  match P.onAppliedTransaction actionTraces t with
  | .ok _ t => t
  | .error _ t => t

end Plugin

mutual

def ActionTrace.executed : ActionTrace → List BaseActionTrace
  | .mk base inlineTraces => base :: executedIn inlineTraces

def executedIn : List ActionTrace → List BaseActionTrace
  | [] => []
  | iline :: rest => iline.executed ++ executedIn rest

end

section

variable (P : Plugin)

mutual

lemma onActionTrace_eq : ∀ trace : ActionTrace, P.onActionTrace trace = forM trace.executed P.onBaseTrace
  | .mk base inlineTraces => by
    rw [Plugin.onActionTrace, ActionTrace.executed, onInlineTraces_eq inlineTraces, List.forM_cons]

lemma onInlineTraces_eq : ∀ traces : List ActionTrace, P.onInlineTraces traces = forM (executedIn traces) P.onBaseTrace
  | [] => rfl
  | iline :: rest => by
    rw [Plugin.onInlineTraces, executedIn, onActionTrace_eq iline, onInlineTraces_eq rest, List.forM_append]

end

end

end XosChain.History
