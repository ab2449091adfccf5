import Mathlib.Data.Fintype.Defs
import Mathlib.Data.List.DropRight
import XosChain.Basic
import XosChain.Lib.FlatMap

/-! `chainbase::generic_index`: rows with an id and any number of further unique keys, with a stack of
undo states. A call that throws still leaves a state behind, so every call returns both. -/

namespace XosChain.Chainbase

open Lib FlatMap

structure Attempt (σ : Type) where
  state : σ
  thrown : Option Thrown := none

structure UndoState (V : Type) where
  oldValues : FlatMap ℕ V := empty
  removedValues : FlatMap ℕ V := empty
  newIds : FlatMap ℕ Unit := empty
  oldNextId : ℕ := 0
  revision : ℤ := 0

structure GenericIndex (V : Type) where
  stack : List (UndoState V) := []
  revision : ℤ := 0
  nextId : ℕ := 0
  rows : FlatMap ℕ V := empty

namespace UndoState

variable {V : Type}

def onModify (head : UndoState V) (id : ℕ) (v : V) : UndoState V :=
  if head.newIds.contains id ∨ head.oldValues.contains id then head
  else { head with oldValues := head.oldValues.set id v }

def onRemove (head : UndoState V) (id : ℕ) (v : V) : UndoState V :=
  if head.newIds.contains id then { head with newIds := head.newIds.erase id }
  else match head.oldValues.find? id with
    | some was =>
      { head with
        removedValues := head.removedValues.set id was
        oldValues := head.oldValues.erase id }
    | none =>
      if head.removedValues.contains id then head
      else { head with removedValues := head.removedValues.set id v }

def onCreate (head : UndoState V) (id : ℕ) : UndoState V :=
  { head with newIds := head.newIds.set id () }

def mergeOld (prev : UndoState V) (item : ℕ × V) : UndoState V :=
  if prev.newIds.contains item.1 ∨ prev.oldValues.contains item.1 then prev
  else { prev with oldValues := prev.oldValues.set item.1 item.2 }

def mergeNew (prev : UndoState V) (item : ℕ × Unit) : UndoState V :=
  { prev with newIds := prev.newIds.set item.1 () }

def mergeRemoved (prev : UndoState V) (item : ℕ × V) : UndoState V :=
  if prev.newIds.contains item.1 then { prev with newIds := prev.newIds.erase item.1 }
  else match prev.oldValues.find? item.1 with
    | some was =>
      { prev with
        removedValues := prev.removedValues.set item.1 was
        oldValues := prev.oldValues.erase item.1 }
    | none => { prev with removedValues := prev.removedValues.set item.1 item.2 }

def merge (prev state : UndoState V) : UndoState V :=
  let prev := state.oldValues.entries.foldl mergeOld prev
  let prev := state.newIds.entries.foldl mergeNew prev
  state.removedValues.entries.foldl mergeRemoved prev

end UndoState

section

variable {ι V : Type} {K : ι → Type} (key : ∀ i, V → K i)

def Clash (v w : V) : Prop := ∃ i, key i v = key i w

variable [Fintype ι] [∀ i, DecidableEq (K i)]

instance (v w : V) : Decidable (Clash key v w) := inferInstanceAs (Decidable (∃ i, key i v = key i w))

def Free (rows : FlatMap ℕ V) (id : ℕ) (v : V) : Prop :=
  ∀ e ∈ rows.entries, e.1 ≠ id → ¬ Clash key v e.2

instance (rows : FlatMap ℕ V) (id : ℕ) (v : V) : Decidable (Free key rows id v) :=
  inferInstanceAs (Decidable (∀ e ∈ rows.entries, e.1 ≠ id → ¬ Clash key v e.2))

def modifyRow (rows : FlatMap ℕ V) (id : ℕ) (v : V) : FlatMap ℕ V × Bool :=
  if Free key rows id v then (rows.set id v, true) else (rows.erase id, false)

def emplaceRow (rows : FlatMap ℕ V) (id : ℕ) (v : V) : FlatMap ℕ V × Bool :=
  if rows.contains id = false ∧ Free key rows id v then (rows.set id v, true) else (rows, false)

def writeRows (write : FlatMap ℕ V → ℕ → V → FlatMap ℕ V × Bool) (rows : FlatMap ℕ V) :
    List (ℕ × V) → FlatMap ℕ V × Bool
  | [] => (rows, true)
  | e :: items =>
    let r := write rows e.1 e.2
    if r.2 then writeRows write r.1 items else r

namespace GenericIndex

def onTop (f : UndoState V → UndoState V) (g : GenericIndex V) : GenericIndex V :=
  match g.stack with
  | [] => g
  | head :: rest => { g with stack := f head :: rest }

def emplace (g : GenericIndex V) (c : Except Thrown V) : Attempt (GenericIndex V) :=
  match c with
  | .error e => ⟨g, some e⟩
  | .ok v =>
    let r := emplaceRow key g.rows g.nextId v
    if r.2 then ⟨onTop (·.onCreate g.nextId) { g with rows := r.1, nextId := g.nextId + 1 }, none⟩
    else ⟨g, some ⟨.logicError, "could not insert object, most likely a uniqueness constraint was violated"⟩⟩

def modify (g : GenericIndex V) (id : ℕ) (m : V → Attempt V) : Attempt (GenericIndex V) :=
  match g.rows.find? id with
  | none => ⟨g, some ⟨.outOfRange, "key not found"⟩⟩
  | some v =>
    let logged := onTop (·.onModify id v) g
    match m v with
    | ⟨w, some e⟩ => ⟨{ logged with rows := g.rows.set id w }, some e⟩
    | ⟨w, none⟩ =>
      let r := modifyRow key g.rows id w
      ⟨{ logged with rows := r.1 },
        if r.2 then none
        else some ⟨.logicError, "Could not modify object, most likely a uniqueness constraint was violated"⟩⟩

def remove (g : GenericIndex V) (id : ℕ) : Attempt (GenericIndex V) :=
  match g.rows.find? id with
  | none => ⟨g, some ⟨.outOfRange, "key not found"⟩⟩
  | some v => ⟨{ onTop (·.onRemove id v) g with rows := g.rows.erase id }, none⟩

def startUndoSession (g : GenericIndex V) : GenericIndex V :=
  { g with
    stack := { oldNextId := g.nextId, revision := g.revision + 1 } :: g.stack
    revision := g.revision + 1 }

def undo (g : GenericIndex V) : Attempt (GenericIndex V) :=
  match g.stack with
  | [] => ⟨g, none⟩
  | head :: rest =>
    let old := writeRows (modifyRow key) g.rows head.oldValues.entries
    if old.2 then
      let rows := head.newIds.entries.foldl (fun rows e => rows.erase e.1) old.1
      let removed := writeRows (emplaceRow key) rows head.removedValues.entries
      if removed.2 then
        ⟨{ stack := rest, revision := g.revision - 1, nextId := head.oldNextId, rows := removed.1 }, none⟩
      else ⟨{ g with nextId := head.oldNextId, rows := removed.1 },
        some ⟨.logicError, "Could not restore object, most likely a uniqueness constraint was violated"⟩⟩
    else ⟨{ g with rows := old.1 },
      some ⟨.logicError, "Could not modify object, most likely a uniqueness constraint was violated"⟩⟩

def squash (g : GenericIndex V) : GenericIndex V :=
  match g.stack with
  | [] => g
  | [_] => { g with stack := [], revision := g.revision - 1 }
  | state :: prev :: rest => { g with stack := prev.merge state :: rest, revision := g.revision - 1 }

def commit (g : GenericIndex V) (revision : ℤ) : GenericIndex V :=
  { g with stack := g.stack.rdropWhile (fun u => decide (u.revision ≤ revision)) }

end GenericIndex

end

end XosChain.Chainbase
