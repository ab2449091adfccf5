import XosChain.Objects
import XosChain.Lib.FlatMap

namespace XosChain.Actions

open Lib FlatMap

structure AccountSequence where
  recvSequence : ℕ := 0
  authSequence : ℕ := 0
  codeSequence : ℕ := 0
  abiSequence : ℕ := 0
  deriving DecidableEq

structure ActionReceipt where
  receiver : AccountName
  actDigest : Digest
  globalSequence : ℕ
  recvSequence : ℕ
  authSequence : FlatMap AccountName ℕ
  codeSequence : ℕ
  abiSequence : ℕ

structure Execution where
  receipt : ActionReceipt
  act : Action
  recurseDepth : ℕ

structure State (σ : Type) where
  globalActionSequence : ℕ
  sequences : FlatMap AccountName AccountSequence
  maxInlineActionDepth : Fin (2 ^ 16)
  rest : σ
  executed : List Execution := []

structure ApplyContext where
  act : Action
  receiver : AccountName
  contextFree : Bool
  recurseDepth : ℕ
  privileged : Bool := false
  notified : List AccountName := []
  cfaInlineActions : List Action := []
  inlineActions : List Action := []

inductive Request where
  | requireRecipient (recipient : AccountName)
  | executeInline (a : Action)
  | executeContextFreeInline (a : Action)
  | newAccount (name : AccountName)
  | setCode (account : AccountName)
  | setAbi (account : AccountName)
  | setMaxInlineActionDepth (depth : Fin (2 ^ 16))
  deriving DecidableEq

structure Env (σ : Type) where
  digest : Action → Digest
  privileged : σ → AccountName → Bool
  permissionExists : σ → PermissionLevel → Bool
  skipAuthCheck : Bool
  checkAuthorization : σ → AccountName → Action → Result Unit
  run : ApplyContext → State σ → Result (List Request × σ)
  scheduleTransaction : σ → Result σ

variable {σ : Type}

namespace State

def isAccount (s : State σ) (account : AccountName) : Bool := s.sequences.contains account

def accountSequence (s : State σ) (account : AccountName) : Result AccountSequence :=
  match s.sequences.find? account with
  | none => .error ⟨.outOfRange, "unknown key"⟩
  | some row => .ok row

def modifySequence (s : State σ) (account : AccountName) (f : AccountSequence → AccountSequence) :
    Result (AccountSequence × State σ) := do
  let row ← s.accountSequence account
  pure (f row, { s with sequences := s.sequences.set account (f row) })

def nextRecvSequence (s : State σ) (receiver : AccountName) : Result (AccountSequence × State σ) :=
  s.modifySequence receiver fun row => { row with recvSequence := row.recvSequence + 1 }

def nextAuthSequence (s : State σ) (actor : AccountName) : Result (AccountSequence × State σ) :=
  s.modifySequence actor fun row => { row with authSequence := row.authSequence + 1 }

def nextAuthSequences (p : FlatMap AccountName ℕ × State σ) (auth : PermissionLevel) :
    Result (FlatMap AccountName ℕ × State σ) := do
  let (row, s) ← p.2.nextAuthSequence auth.actor
  pure (p.1.set auth.actor row.authSequence, s)

end State

namespace ApplyContext

variable (env : Env σ)

def executeInline (c : ApplyContext) (s : State σ) (a : Action) : Result ApplyContext := do
  eosAssert (s.isAccount a.account) .actionValidateException "inline action's code account ${account} does not exist"
  a.authorization.forM fun auth => do
    eosAssert (s.isAccount auth.actor) .actionValidateException
      "inline action's authorizing actor ${account} does not exist"
    eosAssert (env.permissionExists s.rest auth) .actionValidateException
      "inline action's authorizations include a non-existent permission: ${permission}"
  (if !env.skipAuthCheck && !c.privileged && a.account ≠ c.receiver then
    env.checkAuthorization s.rest c.receiver a else pure ())
  pure { c with inlineActions := c.inlineActions ++ [a] }

def executeContextFreeInline (c : ApplyContext) (s : State σ) (a : Action) : Result ApplyContext := do
  eosAssert (s.isAccount a.account) .actionValidateException "inline action's code account ${account} does not exist"
  eosAssert (a.authorization = []) .actionValidateException "context-free actions cannot have authorizations"
  pure { c with cfaInlineActions := c.cfaInlineActions ++ [a] }

def perform (p : ApplyContext × State σ) : Request → Result (ApplyContext × State σ)
  | .requireRecipient recipient =>
    .ok (if recipient ∈ p.1.notified then p.1 else { p.1 with notified := p.1.notified ++ [recipient] }, p.2)
  | .executeInline a => (p.1.executeInline env p.2 a).map fun c => (c, p.2)
  | .executeContextFreeInline a => (p.1.executeContextFreeInline p.2 a).map fun c => (c, p.2)
  | .newAccount name => do
    eosAssert (!p.2.isAccount name) .accountNameExistsException
      "Cannot create account named ${name}, as that name is already taken"
    pure (p.1, { p.2 with sequences := p.2.sequences.set name {} })
  | .setCode account =>
    (p.2.modifySequence account fun row => { row with codeSequence := row.codeSequence + 1 }).map fun q => (p.1, q.2)
  | .setAbi account =>
    (p.2.modifySequence account fun row => { row with abiSequence := row.abiSequence + 1 }).map fun q => (p.1, q.2)
  | .setMaxInlineActionDepth depth => .ok (p.1, { p.2 with maxInlineActionDepth := depth })

def record (c : ApplyContext) (s : State σ) : Result (State σ) := do
  let (row, s) ← { s with globalActionSequence := s.globalActionSequence + 1 }.nextRecvSequence c.receiver
  let account ← s.accountSequence c.act.account
  let (authSequence, s) ← c.act.authorization.foldlM State.nextAuthSequences (empty, s)
  let receipt := ⟨c.receiver, env.digest c.act, s.globalActionSequence, row.recvSequence, authSequence,
    account.codeSequence, account.abiSequence⟩
  pure { s with executed := s.executed ++ [⟨receipt, c.act, c.recurseDepth⟩] }

def execOne (p : ApplyContext × State σ) : Result (ApplyContext × State σ) := do
  let _ ← p.2.accountSequence p.1.receiver
  let c := { p.1 with privileged := env.privileged p.2.rest p.1.receiver }
  let (requests, rest) ← env.run c p.2
  let (c, s) ← requests.foldlM (perform env) (c, { p.2 with rest := rest })
  let s ← c.record env s
  pure (c, s)

def notify : ℕ → ℕ → ApplyContext × State σ → Result (ApplyContext × State σ)
  | 0, _, _ => .error ⟨.deadlineException, "deadline exceeded"⟩
  | n + 1, i, p =>
    match p.1.notified[i]? with
    | none => .ok p
    | some receiver => do
      let q ← execOne env ({ p.1 with receiver := receiver }, p.2)
      notify n (i + 1) q

def dispatched (a : Action) (contextFree : Bool) (recurseDepth : ℕ) : ApplyContext :=
  { act := a, receiver := a.account, contextFree := contextFree, recurseDepth := recurseDepth }

def exec : ℕ → ApplyContext → State σ → Result (State σ)
  | 0, _, _ => .error ⟨.deadlineException, "deadline exceeded"⟩
  | n + 1, c, s => do
    let p ← execOne env ({ c with notified := c.notified ++ [c.receiver] }, s)
    let (c, s) ← notify env n 1 p
    (if c.cfaInlineActions ≠ [] ∨ c.inlineActions ≠ [] then
      eosAssert (c.recurseDepth < s.maxInlineActionDepth) .transactionException
        "max inline action depth per transaction reached" else pure ())
    let s ← c.cfaInlineActions.foldlM (fun s a => exec n (dispatched a true (c.recurseDepth + 1)) s) s
    c.inlineActions.foldlM (fun s a => exec n (dispatched a false (c.recurseDepth + 1)) s) s

end ApplyContext

def execTransaction (env : Env σ) (time : ℕ) (trx : Transaction) (applyContextFree delayed : Bool) (s : State σ) :
    Result (State σ) := do
  let s ← (if applyContextFree then trx.contextFreeActions else []).foldlM
    (fun s a => ApplyContext.exec env time (ApplyContext.dispatched a true 0) s) s
  if delayed then
    let rest ← env.scheduleTransaction s.rest
    pure { s with rest := rest }
  else
    trx.actions.foldlM (fun s a => ApplyContext.exec env time (ApplyContext.dispatched a false 0) s) s

end XosChain.Actions
