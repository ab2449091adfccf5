import XosChain.Chainbase.Undo

namespace XosChain.Chainbase

open Lib

inductive Op (V : Type) where
  | emplace (c : Except Thrown V)
  | modify (id : ℕ) (m : V → Attempt V)
  | remove (id : ℕ)
  | startUndoSession
  | undo
  | squash
  | commit (revision : ℤ)

structure Saved (V : Type) where
  rows : FlatMap ℕ V
  nextId : ℕ
  revision : ℤ

structure Machine (V : Type) where
  rows : FlatMap ℕ V := FlatMap.empty
  nextId : ℕ := 0
  revision : ℤ := 0
  saved : List (Saved V) := []

def Machine.step {V : Type} (m : Machine V) : Op V → Machine V
  | .emplace (.ok v) => { m with rows := m.rows.set m.nextId v, nextId := m.nextId + 1 }
  | .emplace (.error _) => m
  | .modify id f =>
    match (m.rows.find? id).map f with
    | some ⟨w, none⟩ => { m with rows := m.rows.set id w }
    | _ => m
  | .remove id => { m with rows := m.rows.erase id }
  | .startUndoSession =>
    { m with revision := m.revision + 1, saved := ⟨m.rows, m.nextId, m.revision + 1⟩ :: m.saved }
  | .undo =>
    match m.saved with
    | [] => m
    | s :: rest => ⟨s.rows, s.nextId, s.revision - 1, rest⟩
  | .squash =>
    match m.saved with
    | [] => m
    | _ :: rest => { m with revision := m.revision - 1, saved := rest }
  | .commit r => { m with saved := m.saved.rdropWhile (fun s => decide (s.revision ≤ r)) }

section

variable {ι V : Type} {K : ι → Type} (key : ∀ i, V → K i) [Fintype ι] [∀ i, DecidableEq (K i)]

def GenericIndex.step (g : GenericIndex V) : Op V → Attempt (GenericIndex V)
  | .emplace c => g.emplace key c
  | .modify id m => g.modify key id m
  | .remove id => g.remove id
  | .startUndoSession => ⟨g.startUndoSession, none⟩
  | .undo => g.undo key
  | .squash => ⟨g.squash, none⟩
  | .commit r => ⟨g.commit r, none⟩

def Op.isUndo : Op V → Bool
  | .undo => true
  | _ => false

def CallsSucceed : GenericIndex V → List (Op V) → Prop
  | _, [] => True
  | g, op :: ops => (op.isUndo = false → (g.step key op).thrown = none) ∧ CallsSucceed (g.step key op).state ops

def UndosSafe : GenericIndex V → List (Op V) → Prop
  | _, [] => True
  | g, op :: ops => (op.isUndo = true → UndoSafe key g) ∧ UndosSafe (g.step key op).state ops

instance : ∀ (g : GenericIndex V) (ops : List (Op V)), Decidable (CallsSucceed key g ops)
  | _, [] => isTrue trivial
  | g, op :: ops =>
    have := instDecidableCallsSucceed (g.step key op).state ops
    inferInstanceAs (Decidable ((op.isUndo = false → (g.step key op).thrown = none) ∧ _))

instance (g : GenericIndex V) : Decidable (UndoSafe key g) :=
  inferInstanceAs (Decidable (∀ head ∈ g.stack.head?, ∀ e ∈ head.oldValues.entries, ∀ f ∈ g.rows.entries,
    e.1 < f.1 → ¬ Clash key e.2 f.2))

instance : ∀ (g : GenericIndex V) (ops : List (Op V)), Decidable (UndosSafe key g ops)
  | _, [] => isTrue trivial
  | g, op :: ops =>
    have := instDecidableUndosSafe (g.step key op).state ops
    inferInstanceAs (Decidable ((op.isUndo = true → UndoSafe key g) ∧ _))

def Agree (g : GenericIndex V) (m : Machine V) : Prop :=
  g.rows = m.rows ∧ g.nextId = m.nextId ∧ g.revision = m.revision ∧
    g.stack.map UndoState.revision = m.saved.map Saved.revision

def Simulates : GenericIndex V → Machine V → List (Op V) → Prop
  | g, m, [] => Agree g m
  | g, m, op :: ops => Agree g m ∧ (g.step key op).thrown = none ∧ Simulates (g.step key op).state (m.step op) ops

end

end XosChain.Chainbase
