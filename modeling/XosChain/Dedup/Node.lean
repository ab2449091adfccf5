import XosChain.Dedup.Table

namespace XosChain.Dedup

open Lib

structure BlockSession where
  time : ℕ
  receipts : List Transaction
  before : Table

structure Node where
  base : ℕ
  chain : List BlockSession := []
  pending : Option BlockSession := none
  table : Table := FlatMap.empty

inductive Op where
  | startBlock (when_ : ℕ) (clears : Bool)
  | push (i : InputTrx)
  | commitBlock
  | abortBlock
  | popBlock

namespace Node

variable (s : Settings) (n : Node)

def headTime : ℕ := n.chain.head?.elim n.base BlockSession.time

def startBlock (when_ : ℕ) (clears : Bool) : Result Node := do
  eosAssert (n.pending.isNone = true) .blockValidateException "pending block already exists"
  eosAssert (n.headTime < when_) .blockValidateException "next block must be in the future"
  pure
    { n with
      pending := some ⟨when_, [], n.table⟩
      table := if clears then clearExpiredInputTransactions when_ n.table else n.table }

def noPending : Thrown := ⟨.blockValidateException, "it is not valid to finalize when there is no pending block"⟩

def push (i : InputTrx) : Result Node :=
  match n.pending with
  | none => .error noPending
  | some b => do
    let table ← pushTransaction s b.time n.table i
    pure { n with pending := some { b with receipts := i.trx :: b.receipts }, table }

def commitBlock : Result Node :=
  match n.pending with
  | none => .error noPending
  | some b => pure { n with chain := b :: n.chain, pending := none }

def abortBlock : Result Node :=
  match n.pending with
  | none => pure n
  | some b => pure { n with pending := none, table := b.before }

def popBlock : Result Node :=
  match n.pending, n.chain with
  | none, b :: chain => pure { n with chain, table := b.before }
  | _, _ => .error ⟨.blockValidateException, "attempt to pop beyond last irreversible block"⟩

def step : Op → Result Node
  | .startBlock when_ clears => n.startBlock when_ clears
  | .push i => n.push s i
  | .commitBlock => n.commitBlock
  | .abortBlock => n.abortBlock
  | .popBlock => n.popBlock

def exec (op : Op) : Node × Option Thrown :=
  match n.step s op with
  | .ok n' => (n', none)
  | .error e => (n, some e)

def run : Node → List Op → Node × List (Option Thrown)
  | n, [] => (n, [])
  | n, op :: ops =>
    let r := run (n.exec s op).1 ops
    (r.1, (n.exec s op).2 :: r.2)

def blocks : List BlockSession := n.pending.toList ++ n.chain

def receipts : List Transaction := n.blocks.flatMap BlockSession.receipts

end Node

end XosChain.Dedup
