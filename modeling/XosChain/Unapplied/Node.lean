import XosChain.Dedup.NoReplay
import XosChain.Deferred.Retire

namespace XosChain.Unapplied

open Lib Dedup FlatMap

structure SignedTrx where
  trx : Transaction
  envelope : ℕ := 0
  deriving DecidableEq

abbrev Signing := SignedTrx → Digest

structure Attempt where
  checks : Result Unit := pure ()
  init : Result Unit := pure ()
  exec : Result Unit := pure ()

structure BlockState where
  time : ℕ
  transactions : List SignedTrx := []
  trxs : List SignedTrx := []
  validated : Bool := false
  deriving DecidableEq

structure Applied where
  block : BlockState
  before : Table

structure Node where
  base : ℕ
  chain : List Applied := []
  pending : Option Applied := none
  table : Table := empty
  forkDb : List BlockState := []
  unapplied : FlatMap Digest SignedTrx := empty
  owed : Finset Digest := ∅

namespace Node

section

variable (s : Settings) (signedId : Signing)

def headTime (n : Node) : ℕ := n.chain.head?.elim n.base fun a => a.block.time

def startBlock (n : Node) (wanted : ℕ) : Result Node := do
  eosAssert (n.pending.isNone = true) .blockValidateException "pending block already exists"
  eosAssert (n.headTime < wanted) .blockValidateException "next block must be in the future"
  pure
    { n with
      pending := some ⟨{ time := wanted }, n.table⟩
      table := clearExpiredInputTransactions wanted n.table }

def settle (n : Node) (t : SignedTrx) : Node :=
  { n with unapplied := n.unapplied.erase (signedId t), owed := n.owed.erase (signedId t) }

def failed (n : Node) (t : SignedTrx) (e : Thrown) : Node :=
  if e.isFc = true ∧ failureIsSubjective e = false then n.settle signedId t else n

def addTrx (n : Node) (a : Applied) (t : SignedTrx) (table : Table) : Node :=
  { n.settle signedId t with
    pending := some { a with block := { a.block with
      transactions := a.block.transactions ++ [t]
      trxs := a.block.trxs ++ [t] } }
    table }

def pushTransaction (skipTrxChecks : Bool) (n : Node) (t : SignedTrx) (x : Attempt) : Node × Option Thrown :=
  match n.pending with
  | none => (n, some ⟨.undefinedBehavior, "no pending block"⟩)
  | some a =>
    match Dedup.pushTransaction { s with skipTrxChecks } a.block.time n.table ⟨t.trx, x.checks, x.init, x.exec⟩ with
    | .ok table => (n.addTrx signedId a t table, none)
    | .error e => (n.failed signedId t e, some e)

def undo (n : Node) (a : Applied) : Node :=
  { n with
    table := a.before
    unapplied := a.block.trxs.foldl (fun m t => m.set (signedId t) t) n.unapplied
    owed := n.owed ∪ (a.block.transactions.map signedId).toFinset }

def abortBlock (n : Node) : Node :=
  match n.pending with
  | none => n
  | some a => { n.undo signedId a with pending := none }

def popBlock (n : Node) : Result Node :=
  match n.pending, n.chain with
  | none, a :: chain => pure { n.undo signedId a with chain }
  | some _, _ => throw ⟨.undefinedBehavior, "pop with a pending block"⟩
  | none, [] => throw ⟨.blockValidateException, "attempt to pop beyond last irreversible block"⟩

def commitBlock (n : Node) (fault : Option Bool) : Result Node :=
  match n.pending with
  | none => throw ⟨.undefinedBehavior, "no pending block"⟩
  | some a =>
    let block := { a.block with validated := true }
    match fault with
    | none => pure { n with chain := ⟨block, a.before⟩ :: n.chain, forkDb := block :: n.forkDb, pending := none }
    | some true =>
      pure { n.abortBlock signedId with chain := ⟨block, a.before⟩ :: n.chain, forkDb := block :: n.forkDb }
    | some false => pure (n.abortBlock signedId)

def receiveBlock (n : Node) (time : ℕ) (transactions : List SignedTrx) : Node :=
  { n with forkDb := { time, transactions } :: n.forkDb }

def applyTransactions (skipTrxChecks : Bool) (attempts : ℕ → Attempt) :
    Node → ℕ → List SignedTrx → Node × Option Thrown
  | n, _, [] => (n, none)
  | n, i, t :: rest =>
    match n.pushTransaction s signedId skipTrxChecks t (attempts i) with
    | (n, none) => applyTransactions skipTrxChecks attempts n (i + 1) rest
    | (n, some e) => (n, some e)

def rethrow (n : Node) (e : Thrown) : Node := if e.isFc = true then n.abortBlock signedId else n

def acceptApplied (n : Node) (a : Applied) (block : BlockState) : Node :=
  { n with
    chain := ⟨{ block with validated := true }, a.before⟩ :: n.chain
    forkDb := { block with validated := true } :: n.forkDb
    pending := none }

def applyBlock (n : Node) (block : BlockState) (attempts : ℕ → Attempt) (light : Bool) (fault : Option Thrown) :
    Result Node := do
  let started ← n.startBlock block.time
  match applyTransactions s signedId (block.validated || light) attempts started 0 block.transactions with
  | (m, some e) => pure (m.rethrow signedId e)
  | (m, none) =>
    match fault, m.pending with
    | some e, _ => pure (m.rethrow signedId e)
    | none, some a => pure (m.acceptApplied a block)
    | none, none => pure m

end

end Node

inductive Op where
  | startBlock (wanted : ℕ)
  | pushTransaction (t : SignedTrx) (x : Attempt)
  | commitBlock (fault : Option Bool)
  | abortBlock
  | popBlock
  | receiveBlock (time : ℕ) (transactions : List SignedTrx)
  | applyBlock (block : BlockState) (attempts : ℕ → Attempt) (light : Bool) (fault : Option Thrown)
  | dropUnapplied (t : SignedTrx)
  | dropAllUnapplied

namespace Node

variable (s : Settings) (signedId : Signing)

def exec (n : Node) : Op → Result Node
  | .startBlock wanted => n.startBlock wanted
  | .pushTransaction t x => pure (n.pushTransaction s signedId false t x).1
  | .commitBlock fault => n.commitBlock signedId fault
  | .abortBlock => pure (n.abortBlock signedId)
  | .popBlock => n.popBlock signedId
  | .receiveBlock time transactions => pure (n.receiveBlock time transactions)
  | .applyBlock block attempts light fault => do
    eosAssert (block ∈ n.forkDb) .forkDbBlockNotFound "could not find block in fork database"
    n.applyBlock s signedId block attempts light fault
  | .dropUnapplied t => pure (n.settle signedId t)
  | .dropAllUnapplied => pure { n with unapplied := empty, owed := ∅ }

def step (n : Node) (op : Op) : Node :=
  match n.exec s signedId op with
  | .ok n' => n'
  | .error _ => n

def run (n : Node) (ops : List Op) : Node := ops.foldl (step s signedId) n

end Node

end XosChain.Unapplied
