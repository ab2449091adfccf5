import XosChain.Controller.Sessions

/-! Building, committing and applying blocks. Every place where the source can throw takes an optional
exception, and `on_irreversible` may throw before or after its `db.commit`. -/

namespace XosChain.Controller

open Lib Header Fork ForkDatabase

structure Body (τ : Type) where
  header : SignedBlockHeader
  transactions : List τ
  deriving DecidableEq

structure Names (τ : Type) where
  body : BlockId → Body τ
  num : BlockId → ℕ

structure Execution (δ τ : Type) where
  start : SignedBlockHeader → δ → δ
  proposed : BlockHeaderState → δ → Option ProducerSchedule
  execute : τ → δ → Result δ
  finish : BlockId → δ → Result δ

def Execution.run {δ τ : Type} (x : Execution δ τ) (header : SignedBlockHeader) (transactions : List τ) (d : δ) : Result δ :=
  transactions.foldlM (fun d t => x.execute t d) (x.start header d)

def Execution.apply {δ τ : Type} (x : Execution δ τ) (names : Names τ) (id : BlockId) (d : δ) : Result δ :=
  x.run (names.body id).header (names.body id).transactions d >>= x.finish id

inductive Stage where
  | started
  | finalized
  | failed
  deriving DecidableEq

structure Pending (τ : Type) where
  block : BlockState
  transactions : List τ
  stage : Stage

structure Faults (δ : Type) where
  start : Option Thrown := none
  transaction : ℕ → Option Thrown := fun _ => none
  finalize : Option (Thrown × δ) := none
  acceptedBlockHeader : Option Thrown := none
  reversible : Option Thrown := none
  acceptedBlock : Option Thrown := none

structure Store (δ τ : Type) where
  db : Sessions δ
  pending : Option (Pending τ) := none
  faults : List (Faults δ) := []

abbrev OnIrreversible := BlockState → Option (Bool × Thrown)

namespace OnIrreversible

def handler (o : OnIrreversible) : Handler := fun s =>
  match o s with
  | none => .ok none
  | some (_, e) => .error e

def commits (o : OnIrreversible) (s : BlockState) : Bool := (o s).elim true Prod.fst

end OnIrreversible

def Sessions.commit {δ : Type} (s : Sessions δ) (revision : ℕ) : Sessions δ :=
  { s with undos := s.undos.take (s.revision - revision) }

section

variable {δ τ : Type} (c : Crypto) (x : Execution δ τ) (names : Names τ)

def raise {σ : Type} : Option Thrown → Step σ Unit
  | some e => throw e
  | none => pure ()

def commitSignalled (o : OnIrreversible) (signals : List Signal) (db : Sessions δ) : Sessions δ :=
  signals.foldl (fun db sig => if o.commits sig.block = true then db.commit sig.block.blockNum else db) db

def withIrreversible (o : OnIrreversible) (action : Fork.Action Unit) : Step (Store δ τ) Unit := fun s =>
  let next := fun db : ForkDatabase =>
    { s with
      forkDb := db
      store := { s.store with db := commitSignalled o (db.signalled.drop s.forkDb.signalled.length) s.store.db } }
  match action s.forkDb with
  | .ok _ db => .ok () (next db)
  | .error e db => .error e (next db)

def abortBlock : Step (Store δ τ) Unit := modify fun s =>
  match s.store.pending with
  | none => s
  | some _ => { s with store := { s.store with db := s.store.db.undo, pending := none } }

def startState (head : BlockHeaderState) (when : Slot) (confirmBlockCount : ℕ) (d : δ) : Result BlockHeaderState := do
  let template ← head.generateNext c when
  let confirmed := template.setConfirmed confirmBlockCount
  let s := confirmed.maybePromotePending
  if confirmed.promotes = false ∧ s.pendingSchedule.producers = [] then
    match x.proposed s d with
    | some schedule => s.setNewProducers c schedule
    | none => pure s
  else pure s

def opened (s : State (Store δ τ)) (p : BlockHeaderState) : State (Store δ τ) :=
  { s with
    store := { s.store with
      db := s.store.db.push (x.start p.header s.store.db.contents)
      pending := some ⟨{ p with inCurrentChain := true }, [], .started⟩ } }

def startBlock (when : Slot) (confirmBlockCount : ℕ) (fault : Option Thrown) : Step (Store δ τ) Unit := do
  let s ← get
  match s.store.pending with
  | some _ => throw ⟨.blockValidateException, "pending block already exists"⟩
  | none =>
    if s.store.db.revision = s.head.blockNum then
      match startState c x s.head.toBlockHeaderState when confirmBlockCount s.store.db.contents with
      | .error e => throw e
      | .ok p => do
        raise fault
        set (opened x s p)
    else throw ⟨.databaseException, "db revision is not on par with head block"⟩

def pushTransaction (t : τ) (fault : Option Thrown) : Step (Store δ τ) (Option Thrown) := do
  let s ← get
  match s.store.pending with
  | none => throw ⟨.undefinedBehavior, "no pending block"⟩
  | some p => do
    raise fault
    match x.execute t s.store.db.contents with
    | .error e => pure (some e)
    | .ok d => do
      set { s with
        store := { s.store with
          db := { s.store.db with contents := d }
          pending := some { p with transactions := p.transactions ++ [t] } } }
      pure none

def finalizeBlock (id : BlockId) (fault : Option (Thrown × δ)) : Step (Store δ τ) Unit := do
  let s ← get
  match s.store.pending with
  | none => throw ⟨.blockValidateException, "it is not valid to finalize when there is no pending block"⟩
  | some p =>
    let failed (d : δ) : State (Store δ τ) :=
      { s with
        store := { s.store with db := { s.store.db with contents := d }, pending := some { p with stage := .failed } } }
    match fault with
    | some (e, d) => do
      set (failed d)
      throw e
    | none =>
      match x.finish id s.store.db.contents with
      | .error e => do
        set (failed s.store.db.contents)
        throw e
      | .ok d =>
        set { s with
          store := { s.store with
            db := { s.store.db with contents := d }
            pending := some { p with block := { p.block with id := id }, stage := .finalized } } }

def takeForkHead (id : BlockId) : Step (Store δ τ) Unit := do
  let s ← get
  match s.forkDb.head.bind s.forkDb.getBlock with
  | none => throw ⟨.undefinedBehavior, "no head block"⟩
  | some h => do
    setHead h
    if h.id = id then pure ()
    else throw ⟨.forkDatabaseException, "committed block did not become the new head in fork database"⟩

def commitToForkDb (addToForkDb : Bool) (o : OnIrreversible) (f : Faults δ) (p : Pending τ) : Step (Store δ τ) Unit :=
  if addToForkDb = true then do
    withIrreversible o (add o.handler { p.block with validated := true })
    raise f.acceptedBlockHeader
    takeForkHead p.block.id
  else pure ()

def commitPending (addToForkDb : Bool) (o : OnIrreversible) (f : Faults δ) (p : Pending τ) : Step (Store δ τ) Unit := do
  commitToForkDb addToForkDb o f p
  raise f.reversible
  raise f.acceptedBlock

def commitBlock (addToForkDb : Bool) (o : OnIrreversible) (f : Faults δ) : Step (Store δ τ) Unit := do
  match (← get).store.pending with
  | none => throw ⟨.undefinedBehavior, "no pending block"⟩
  | some p => do
    tryCatch (commitPending addToForkDb o f p) fun e => do
      abortBlock
      throw e
    modify fun s => { s with store := { s.store with pending := none } }

def applyTransaction (t : τ) (fault : Option Thrown) : Step (Store δ τ) Unit := do
  match ← pushTransaction x t fault with
  | none => pure ()
  | some e => throw e

def applyTransactions (f : ℕ → Option Thrown) : ℕ → List τ → Step (Store δ τ) Unit
  | _, [] => pure ()
  | k, t :: transactions => do
    applyTransaction x t (f k)
    applyTransactions f (k + 1) transactions

def requireHeader (header : SignedBlockHeader) : Step (Store δ τ) Unit := do
  if (← get).store.pending.map (fun p => p.block.header) = some header then pure ()
  else throw ⟨.blockValidateException, "Block ID does not match"⟩

def takeFaults : Step (Store δ τ) (Faults δ) := do
  let s ← get
  set { s with store := { s.store with faults := s.store.faults.tail } }
  pure (s.store.faults.headD {})

def applyBody (id : BlockId) (b : Body τ) (f : Faults δ) : Step (Store δ τ) Unit := do
  startBlock c x b.header.timestamp b.header.confirmed f.start
  applyTransactions x f.transaction 0 b.transactions
  finalizeBlock x id f.finalize
  requireHeader b.header
  commitBlock false (fun _ => none) f

def applyBlockState (b : BlockState) : Step (Store δ τ) Unit := do
  let f ← takeFaults
  catchFc (applyBody c x b.id (names.body b.id) f) fun e => do
    abortBlock
    throw e

def undoStore (s : Store δ τ) : Store δ τ := { s with db := s.db.undo }

def setFaults (faults : List (Faults δ)) : Step (Store δ τ) Unit :=
  modify fun s => { s with store := { s.store with faults := faults } }

def switchForks (faults : List (Faults δ)) : Step (Store δ τ) Unit := do
  setFaults faults
  maybeSwitchForks undoStore (applyBlockState c x names)

def requireNoPending (what : String) : Step (Store δ τ) Unit := do
  if (← get).store.pending.isNone = true then pure () else throw ⟨.blockValidateException, what⟩

def pushBlock (b : SignedBlockHeader) (trust : Bool) (o : OnIrreversible) (signal : Option Thrown)
    (faults : List (Faults δ)) : Step (Store δ τ) Unit := do
  requireNoPending "it is not valid to push a block when there is a pending block"
  withIrreversible o (addBlock c o.handler b trust)
  raise signal
  switchForks c x names faults

def pushConfirmation (conf : HeaderConfirmation) (signal : Option Thrown) (faults : List (Faults δ)) :
    Step (Store δ τ) Unit := do
  requireNoPending "it is not valid to push a confirmation when there is a pending block"
  onForkDb (addConfirmation c conf)
  raise signal
  switchForks c x names faults

end

end XosChain.Controller
