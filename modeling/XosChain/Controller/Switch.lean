import XosChain.Fork.Chains

namespace XosChain.Controller

open Lib Header Fork

structure State (σ : Type) where
  forkDb : ForkDatabase
  head : BlockState
  store : σ

abbrev Step (σ : Type) := EStateM Thrown (State σ)

section

variable {σ : Type} (undo : σ → σ) (applyBlock : BlockState → Step σ Unit)

def onForkDb {α : Type} (x : Fork.Action α) : Step σ α := fun c =>
  match x c.forkDb with
  | .ok a db => .ok a { c with forkDb := db }
  | .error e db => .error e { c with forkDb := db }

def catchFc (x : Step σ Unit) (handler : Thrown → Step σ Unit) : Step σ Unit :=
  tryCatch x fun e => if e.isFc = true then handler e else throw e

def setHead (b : BlockState) : Step σ Unit := modify fun c => { c with head := b }

def markInCurrentChain (b : BlockState) (flag : Bool) : Step σ Unit := do
  let c ← get
  onForkDb (ForkDatabase.markInCurrentChain ((c.forkDb.getBlock b.id).getD b) flag)

def setValidity (b : BlockState) (valid : Bool) : Step σ Unit := onForkDb (ForkDatabase.setValidity b valid)

def popGuard : Thrown := ⟨.blockValidateException, "attempt to pop beyond last irreversible block"⟩

def popBlock : Step σ Unit := do
  match (← get).forkDb.getBlock (← get).head.prev with
  | none => throw popGuard
  | some prev => modify fun c => { c with head := prev, store := undo c.store }

def unwind : List BlockState → Step σ Unit
  | [] => pure ()
  | b :: branch => do
    markInCurrentChain b false
    popBlock undo
    unwind branch

def requireHeadBelow (branch : List BlockState) (what : String) : Step σ Unit := do
  if branch.getLast?.map (fun b => b.prev) = some (← get).head.id then pure ()
  else throw ⟨.forkDatabaseException, what⟩

def applyNext (b : BlockState) : Step σ Unit := do
  applyBlock b
  setHead b
  markInCurrentChain b true

def reapply : List BlockState → Step σ Unit
  | [] => pure ()
  | b :: branch => do
    applyNext applyBlock b
    reapply branch

def advance (b : BlockState) : Step σ Unit := do
  applyNext applyBlock b
  setValidity b true

def revert (old applied : List BlockState) (b : BlockState) (e : Thrown) : Step σ Unit := do
  setValidity b false
  unwind undo applied
  requireHeadBelow old "loss of sync between fork_db and chainbase during fork switch reversal"
  reapply applyBlock old.reverse
  throw e

def applyBranch (old : List BlockState) : List BlockState → List BlockState → Step σ Unit
  | _, [] => pure ()
  | applied, b :: branch => do
    catchFc (advance applyBlock b) (revert undo applyBlock old applied b)
    applyBranch old (b :: applied) branch

def switchBranches (branches : List BlockState × List BlockState) : Step σ Unit := do
  unwind undo branches.2
  requireHeadBelow branches.2 "loss of sync between fork_db and chainbase during fork switch"
  applyBranch undo applyBlock branches.2 [] branches.1.reverse

def extendHead (newHead : BlockState) : Step σ Unit :=
  catchFc
    (do
      applyBlock newHead
      markInCurrentChain newHead true
      setValidity newHead true
      setHead newHead)
    fun e => do
      setValidity newHead false
      throw e

def switchTo (newHead : BlockState) : Step σ Unit := do
  let c ← get
  if newHead.prev = c.head.id then extendHead applyBlock newHead
  else if newHead.id ≠ c.head.id then
    match c.forkDb.index.fetchBranchFrom newHead.id c.head.id with
    | some branches => switchBranches undo applyBlock branches
    | none => throw ⟨.undefinedBehavior, "fetch_branch_from of a missing block"⟩
  else pure ()

def maybeSwitchForks : Step σ Unit := do
  let c ← get
  match c.forkDb.head.bind c.forkDb.getBlock with
  | some newHead => switchTo undo applyBlock newHead
  | none => throw ⟨.undefinedBehavior, "no head block"⟩

end

section

variable {σ α : Type} {c : State σ}

lemma onForkDb_spec {x : Fork.Action α} {Q : α → ForkDatabase → Prop} {R : Thrown → ForkDatabase → Prop}
    (h : Triple (· = c.forkDb) x Q R) :
    Triple (· = c) (onForkDb x) (fun a c' => ∃ db, Q a db ∧ c' = { c with forkDb := db })
      (fun e c' => ∃ db, R e db ∧ c' = { c with forkDb := db }) := by
  intro s hs
  rw [hs]
  have hx := h c.forkDb rfl
  simp only [onForkDb]
  cases hf : x c.forkDb with
  | ok a db =>
    rw [hf] at hx
    exact ⟨db, hx, rfl⟩
  | error e db =>
    rw [hf] at hx
    exact ⟨db, hx, rfl⟩

lemma catchFc_spec {P : State σ → Prop} {Q : Unit → State σ → Prop} {R R' : Thrown → State σ → Prop}
    {x : Step σ Unit} {handler : Thrown → Step σ Unit} (hx : Triple P x Q R)
    (hh : ∀ e, e.isFc = true → Triple (R e) (handler e) Q R') (hn : ∀ e c, e.isFc ≠ true → R e c → R' e c) :
    Triple P (catchFc x handler) Q R' := by
  refine .tryCatch hx ?_
  intro e
  split_ifs with he
  · exact hh e he
  · exact .throw _ (fun c hc => hn e c he hc)

end

end XosChain.Controller
