import XosChain.Chainbase.GenericIndex
import XosChain.Lib.Change

namespace XosChain.Chainbase

open Lib FlatMap

variable {V : Type}

def entryOf : Change V → Option Unit × Option V × Option V
  | .nop => (none, none, none)
  | .new => (some (), none, none)
  | .upd was => (none, some was, none)
  | .del was => (none, none, some was)

namespace UndoState

def entry (u : UndoState V) (id : ℕ) : Option Unit × Option V × Option V :=
  (u.newIds.find? id, u.oldValues.find? id, u.removedValues.find? id)

variable {u : UndoState V} {id : ℕ} {c : Change V}

lemma entry_eq (h : u.entry id = entryOf c) :
    u.newIds.find? id = (entryOf c).1 ∧ u.oldValues.find? id = (entryOf c).2.1 ∧
    u.removedValues.find? id = (entryOf c).2.2 := by
  rw [← h]
  exact ⟨rfl, rfl, rfl⟩

lemma onModify_entry_self (h : u.entry id = entryOf c) (v : V)
    (hc : ∀ x, c ≠ .del x) : (u.onModify id v).entry id = entryOf (c.merge (.upd v)) := by
  obtain ⟨hn, ho, hr⟩ := entry_eq h
  cases c with
  | del x => exact absurd rfl (hc x)
  | nop | new | upd x => simp_all [onModify, entry, entryOf, FlatMap.contains, Change.merge]

lemma onModify_entry_other {id j : ℕ} (h : id ≠ j) (v : V) : (u.onModify id v).entry j = u.entry j := by
  rw [onModify]
  split_ifs
  · rfl
  · simp [entry, find?_set_of_ne _ _ h]

lemma onRemove_entry_self (h : u.entry id = entryOf c) (v : V)
    (hc : ∀ x, c ≠ .del x) : (u.onRemove id v).entry id = entryOf (c.merge (.del v)) := by
  obtain ⟨hn, ho, hr⟩ := entry_eq h
  cases c with
  | del x => exact absurd rfl (hc x)
  | nop | new | upd x => simp_all [onRemove, entry, entryOf, FlatMap.contains, Change.merge]

lemma onRemove_entry_other {id j : ℕ} (h : id ≠ j) (v : V) : (u.onRemove id v).entry j = u.entry j := by
  rw [onRemove]
  by_cases hn : u.newIds.contains id
  · simp [hn, entry, find?_erase_of_ne _ h]
  · cases ho : u.oldValues.find? id with
    | some was => simp [hn, entry, find?_erase_of_ne _ h, find?_set_of_ne _ _ h]
    | none =>
      by_cases hr : u.removedValues.contains id
      · simp [hn, hr]
      · simp [hn, hr, entry, find?_set_of_ne _ _ h]

lemma onCreate_entry_self (h : u.entry id = entryOf .nop) :
    (u.onCreate id).entry id = entryOf .new := by
  obtain ⟨hn, ho, hr⟩ := entry_eq h
  simp_all [onCreate, entry, entryOf]

lemma onCreate_entry_other {id j : ℕ} (h : id ≠ j) : (u.onCreate id).entry j = u.entry j := by
  simp [onCreate, entry, find?_set_of_ne _ _ h]

section

def afterOld (e : Option Unit × Option V × Option V) (v : V) : Option Unit × Option V × Option V :=
  if e.1.isSome ∨ e.2.1.isSome then e else (e.1, some v, e.2.2)

def afterRemoved (e : Option Unit × Option V × Option V) (v : V) : Option Unit × Option V × Option V :=
  if e.1.isSome then (none, e.2.1, e.2.2)
  else match e.2.1 with
    | some was => (e.1, none, some was)
    | none => (e.1, none, some v)

lemma mergeOld_fold (m : FlatMap ℕ V) (prev : UndoState V) (j : ℕ) :
    (m.entries.foldl mergeOld prev).entry j = (m.find? j).elim (prev.entry j) (afterOld (prev.entry j)) := by
  refine foldl_pointwise entry mergeOld afterOld ?_ ?_ m prev j
  · intro u e
    rw [mergeOld, afterOld]
    by_cases hc : u.newIds.contains e.1 ∨ u.oldValues.contains e.1
    · rw [if_pos hc]
      exact (if_pos hc).symm
    · rw [if_neg hc]
      refine Eq.trans ?_ (if_neg hc).symm
      simp [entry]
  · intro u e j hj
    rw [mergeOld]
    split_ifs
    · rfl
    · simp [entry, find?_set_of_ne _ _ (Ne.symm hj)]

lemma mergeNew_fold (m : FlatMap ℕ Unit) (prev : UndoState V) (j : ℕ) :
    (m.entries.foldl mergeNew prev).entry j =
      (m.find? j).elim (prev.entry j) (fun _ => (some (), (prev.entry j).2)) := by
  refine foldl_pointwise entry mergeNew (fun e _ => (some (), e.2)) ?_ ?_ m prev j
  · intro u e
    simp [mergeNew, entry]
  · intro u e j hj
    simp [mergeNew, entry, find?_set_of_ne _ _ (Ne.symm hj)]

lemma mergeRemoved_fold (m : FlatMap ℕ V) (prev : UndoState V) (j : ℕ) :
    (m.entries.foldl mergeRemoved prev).entry j =
      (m.find? j).elim (prev.entry j) (afterRemoved (prev.entry j)) := by
  refine foldl_pointwise entry mergeRemoved afterRemoved ?_ ?_ m prev j
  · intro u e
    rw [mergeRemoved, afterRemoved]
    by_cases hn : u.newIds.contains e.1
    · rw [if_pos hn]
      refine Eq.trans ?_ (if_pos hn).symm
      simp [entry]
    · rw [if_neg hn]
      refine Eq.trans ?_ (if_neg hn).symm
      cases ho : u.oldValues.find? e.1 <;> simp [entry, ho]
  · intro u e j hj
    rw [mergeRemoved]
    by_cases hn : u.newIds.contains e.1
    · simp [hn, entry, find?_erase_of_ne _ (Ne.symm hj)]
    · cases ho : u.oldValues.find? e.1 <;>
        simp [hn, entry, find?_erase_of_ne _ (Ne.symm hj), find?_set_of_ne _ _ (Ne.symm hj)]

lemma foldl_keeps {α β γ : Type} (obs : β → γ) {f : β → α → β} (h : ∀ b a, obs (f b a) = obs b) (l : List α) (b : β) :
    obs (l.foldl f b) = obs b := by
  induction l generalizing b with
  | nil => rfl
  | cons a l ih => rw [List.foldl_cons, ih, h]

lemma mergeOld_frame (u : UndoState V) (e : ℕ × V) :
    (u.mergeOld e).oldNextId = u.oldNextId ∧ (u.mergeOld e).revision = u.revision := by
  rw [mergeOld]
  split_ifs <;> exact ⟨rfl, rfl⟩

lemma mergeRemoved_frame (u : UndoState V) (e : ℕ × V) :
    (u.mergeRemoved e).oldNextId = u.oldNextId ∧ (u.mergeRemoved e).revision = u.revision := by
  rw [mergeRemoved]
  by_cases hn : u.newIds.contains e.1
  · rw [if_pos hn]
    exact ⟨rfl, rfl⟩
  · rw [if_neg hn]
    cases u.oldValues.find? e.1 <;> exact ⟨rfl, rfl⟩

lemma merge_oldNextId (prev state : UndoState V) : (prev.merge state).oldNextId = prev.oldNextId := by
  rw [merge, foldl_keeps oldNextId (fun u e => (mergeRemoved_frame u e).1),
    foldl_keeps oldNextId (f := mergeNew) (fun _ _ => rfl), foldl_keeps oldNextId (fun u e => (mergeOld_frame u e).1)]

lemma merge_revision (prev state : UndoState V) : (prev.merge state).revision = prev.revision := by
  rw [merge, foldl_keeps revision (fun u e => (mergeRemoved_frame u e).2),
    foldl_keeps revision (f := mergeNew) (fun _ _ => rfl), foldl_keeps revision (fun u e => (mergeOld_frame u e).2)]

lemma merge_entry {prev state : UndoState V} {id : ℕ} {c d : Change V} (hc : prev.entry id = entryOf c)
    (hd : state.entry id = entryOf d) (h : c.Composable d) : (prev.merge state).entry id = entryOf (c.merge d) := by
  obtain ⟨hnew, hold, hrem⟩ := entry_eq hd
  rw [merge, mergeRemoved_fold, mergeNew_fold, mergeOld_fold, hnew, hold, hrem, hc]
  cases c <;> cases d <;> simp_all [entryOf, afterOld, afterRemoved, Change.Composable, Change.merge]

end

end UndoState

end XosChain.Chainbase
