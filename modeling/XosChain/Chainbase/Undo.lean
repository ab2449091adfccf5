import XosChain.Chainbase.UndoLog

namespace XosChain.Chainbase

open Lib FlatMap List UndoState

variable {ι V : Type} {K : ι → Type} (key : ∀ i, V → K i)

def Distinct (rows : FlatMap ℕ V) : Prop :=
  ∀ i j v w, i ≠ j → rows.find? i = some v → rows.find? j = some w → ¬ Clash key v w

def UndoSafe (g : GenericIndex V) : Prop :=
  ∀ head ∈ g.stack.head?, ∀ e ∈ head.oldValues.entries, ∀ f ∈ g.rows.entries, e.1 < f.1 → ¬ Clash key e.2 f.2

variable {key}

lemma Clash.symm {v w : V} (h : Clash key v w) : Clash key w v := by
  obtain ⟨i, hi⟩ := h
  exact ⟨i, hi.symm⟩

lemma free_iff {rows : FlatMap ℕ V} {id : ℕ} {v : V} :
    Free key rows id v ↔ ∀ j w, rows.find? j = some w → j ≠ id → ¬ Clash key v w := by
  constructor
  · intro h j w hw hj
    exact h (j, w) ((rows.find?_eq_some_iff j w).mp hw) hj
  · rintro h ⟨j, w⟩ he hj
    exact h j w ((rows.find?_eq_some_iff j w).mpr he) hj

def setRows (rows : FlatMap ℕ V) (items : List (ℕ × V)) : FlatMap ℕ V :=
  items.foldl (fun rows e => rows.set e.1 e.2) rows

lemma find?_setRows (rows m : FlatMap ℕ V) (j : ℕ) :
    (setRows rows m.entries).find? j = (m.find? j).elim (rows.find? j) some := by
  refine foldl_pointwise FlatMap.find? _ (fun _ v => some v) ?_ ?_ m rows j
  · intro r e
    exact r.find?_set_self e.1 e.2
  · intro r e j hj
    exact r.find?_set_of_ne e.2 (Ne.symm hj)

lemma find?_eraseRows (rows : FlatMap ℕ V) (ids : FlatMap ℕ Unit) (j : ℕ) :
    (ids.entries.foldl (fun rows e => rows.erase e.1) rows).find? j =
      (ids.find? j).elim (rows.find? j) (fun _ => none) := by
  refine foldl_pointwise FlatMap.find? _ (fun _ _ => none) ?_ ?_ ids rows j
  · intro r e
    exact r.find?_erase_self e.1
  · intro r e j hj
    exact r.find?_erase_of_ne (Ne.symm hj)

section

variable [Fintype ι] [∀ i, DecidableEq (K i)] {items : List (ℕ × V)}

section

variable (rows : FlatMap ℕ V) (ha : Ascending items) (hd : ∀ e ∈ items, ∀ f ∈ items, e.1 ≠ f.1 → ¬ Clash key e.2 f.2)

include rows ha hd

lemma writeRows_modify
    (hl : ∀ e ∈ items, ∀ j w, rows.find? j = some w → j < e.1 → (∀ f ∈ items, f.1 ≠ j) → ¬ Clash key e.2 w) :
    ((writeRows (modifyRow key) rows items).2 = true ↔
      ∀ e ∈ items, ∀ j w, e.1 < j → rows.find? j = some w → ¬ Clash key e.2 w) ∧
    ((writeRows (modifyRow key) rows items).2 = true →
      (writeRows (modifyRow key) rows items).1 = setRows rows items) := by
  induction items generalizing rows with
  | nil => simp [writeRows, setRows]
  | cons e items ih =>
    have hlt := (pairwise_cons.mp ha).1
    have hfree : Free key rows e.1 e.2 ↔ ∀ j w, e.1 < j → rows.find? j = some w → ¬ Clash key e.2 w := by
      rw [free_iff]
      constructor
      · intro h j w hj hw
        exact h j w hw hj.ne'
      · intro h j w hw hj
        rcases lt_or_gt_of_ne hj with hj | hj
        · refine hl e mem_cons_self j w hw hj ?_
          intro f hf
          rcases mem_cons.mp hf with rfl | hf
          · exact hj.ne'
          · exact (hj.trans (hlt f hf)).ne'
        · exact h j w hj hw
    by_cases hf : Free key rows e.1 e.2
    · obtain ⟨hiff, hrows⟩ := ih (rows.set e.1 e.2) (pairwise_cons.mp ha).2
        (fun a ha b hb => hd a (mem_cons_of_mem e ha) b (mem_cons_of_mem e hb)) (by
          intro f hmem j w hw hj hn
          obtain ⟨rfl, rfl⟩ | ⟨he, hw⟩ := find?_set_some hw
          · exact hd f (mem_cons_of_mem e hmem) e mem_cons_self (hlt f hmem).ne'
          · refine hl f (mem_cons_of_mem e hmem) j w hw hj ?_
            intro b hb
            rcases mem_cons.mp hb with rfl | hb
            · exact he
            · exact hn b hb)
      simp only [writeRows, modifyRow, if_pos hf, if_true]
      refine ⟨hiff.trans ?_, hrows⟩
      rw [forall_mem_cons]
      refine ⟨fun h => ⟨hfree.mp hf, ?_⟩, fun h => ?_⟩
      · intro f hmem j w hj hw
        exact h f hmem j w hj (by rwa [find?_set_of_ne _ _ ((hlt f hmem).trans hj).ne])
      · intro f hmem j w hj hw
        exact h.2 f hmem j w hj (by rwa [find?_set_of_ne _ _ ((hlt f hmem).trans hj).ne] at hw)
    · simp only [writeRows, modifyRow, if_neg hf]
      refine ⟨⟨fun h => absurd h (by simp), fun h => ?_⟩, fun h => absurd h (by simp)⟩
      exact absurd (hfree.mpr (h e mem_cons_self)) hf

lemma writeRows_emplace (hn : ∀ e ∈ items, rows.find? e.1 = none)
    (hr : ∀ e ∈ items, ∀ j w, rows.find? j = some w → ¬ Clash key e.2 w) :
    writeRows (emplaceRow key) rows items = (setRows rows items, true) := by
  induction items generalizing rows with
  | nil => rfl
  | cons e items ih =>
    have hlt := (pairwise_cons.mp ha).1
    have hc : rows.contains e.1 = false ∧ Free key rows e.1 e.2 := by
      refine ⟨?_, free_iff.mpr (fun j w hw _ => hr e mem_cons_self j w hw)⟩
      rw [FlatMap.contains, hn e mem_cons_self]
      rfl
    simp only [writeRows, emplaceRow, if_pos hc, if_true]
    refine ih (rows.set e.1 e.2) (pairwise_cons.mp ha).2 ?_ ?_ ?_
    · intro a ha b hb
      exact hd a (mem_cons_of_mem e ha) b (mem_cons_of_mem e hb)
    · intro f hmem
      rw [find?_set_of_ne _ _ (hlt f hmem).ne]
      exact hn f (mem_cons_of_mem e hmem)
    · intro f hmem
      exact forall_set (hr f (mem_cons_of_mem e hmem))
        (hd f (mem_cons_of_mem e hmem) e mem_cons_self (hlt f hmem).ne')

end

end

structure Legal (key : ∀ i, V → K i) (rows : FlatMap ℕ V) (nextId : ℕ) : Prop where
  distinct : Distinct key rows
  below : ∀ i v, rows.find? i = some v → i < nextId

structure Logged (u : UndoState V) (base rows : FlatMap ℕ V) (c : ℕ → Change V) : Prop where
  entry : ∀ i, u.entry i = entryOf (c i)
  valid : ∀ i, (c i).Valid (base.find? i) (rows.find? i)
  fresh : ∀ i, c i = .new → u.oldNextId ≤ i

section

variable {u : UndoState V} {base rows : FlatMap ℕ V} {c : ℕ → Change V}

variable {e : ℕ × V}

section

variable (h : Logged u base rows c)

include h

lemma Logged.old_mem (he : e ∈ u.oldValues.entries) : c e.1 = .upd e.2 := by
  have ho := (entry_eq (h.entry e.1)).2.1
  rw [(u.oldValues.find?_eq_some_iff e.1 e.2).mpr he] at ho
  cases hc : c e.1 <;> simp_all [entryOf]

lemma Logged.removed_mem (he : e ∈ u.removedValues.entries) :
    c e.1 = .del e.2 := by
  have hr := (entry_eq (h.entry e.1)).2.2
  rw [(u.removedValues.find?_eq_some_iff e.1 e.2).mpr he] at hr
  cases hc : c e.1 <;> simp_all [entryOf]

lemma Logged.old_base (he : e ∈ u.oldValues.entries) :
    base.find? e.1 = some e.2 := by
  have hv := h.valid e.1
  rw [h.old_mem he] at hv
  exact hv.1

lemma Logged.removed_base (he : e ∈ u.removedValues.entries) :
    base.find? e.1 = some e.2 ∧ rows.find? e.1 = none := by
  have hv := h.valid e.1
  rw [h.removed_mem he] at hv
  exact hv

lemma Logged.below_old (hb : Legal key base u.oldNextId) (he : e ∈ u.oldValues.entries) {j : ℕ} {w : V}
    (hw : rows.find? j = some w) (hj : j < e.1) (hn : ∀ f ∈ u.oldValues.entries, f.1 ≠ j) : ¬ Clash key e.2 w := by
  have hlt := hb.below _ _ (h.old_base he)
  have hv := h.valid j
  cases hc : c j with
  | nop =>
    rw [hc, hw] at hv
    exact hb.distinct _ _ _ _ hj.ne' (h.old_base he) hv
  | new =>
    have hf := h.fresh j hc
    omega
  | upd x =>
    have ho := (entry_eq (h.entry j)).2.1
    rw [hc] at ho
    exact absurd rfl (hn (j, x) ((u.oldValues.find?_eq_some_iff j x).mp ho))
  | del x =>
    rw [hc, hw] at hv
    cases hv.2

lemma Logged.find?_kept (j : ℕ) :
    (u.newIds.entries.foldl (fun rows e => rows.erase e.1) (setRows rows u.oldValues.entries)).find? j =
      match c j with
      | .del _ => none
      | _ => base.find? j := by
  obtain ⟨hn, ho, _⟩ := entry_eq (h.entry j)
  have hv := h.valid j
  rw [find?_eraseRows, find?_setRows, hn, ho]
  cases hc : c j <;> simp_all [entryOf, Change.Valid]

lemma Logged.restored :
    setRows (u.newIds.entries.foldl (fun rows e => rows.erase e.1) (setRows rows u.oldValues.entries))
      u.removedValues.entries = base := by
  refine ext_find? ?_
  intro j
  obtain ⟨_, _, hr⟩ := entry_eq (h.entry j)
  have hv := h.valid j
  rw [find?_setRows, h.find?_kept, hr]
  cases hc : c j <;> simp_all [entryOf, Change.Valid]

end

variable [Fintype ι] [∀ i, DecidableEq (K i)]

lemma Logged.emplace_removed (h : Logged u base rows c) (hb : Legal key base u.oldNextId) :
    writeRows (emplaceRow key)
      (u.newIds.entries.foldl (fun rows e => rows.erase e.1) (setRows rows u.oldValues.entries))
      u.removedValues.entries = (base, true) := by
  rw [writeRows_emplace _ u.removedValues.ascending, h.restored]
  · intro e he f hf hne
    exact hb.distinct _ _ _ _ hne (h.removed_base he).1 (h.removed_base hf).1
  · intro e he
    rw [h.find?_kept, h.removed_mem he]
  · intro e he j w hw
    rw [h.find?_kept] at hw
    have hbase : base.find? j = some w := by
      cases hc : c j <;> simp_all
    have hne : e.1 ≠ j := by
      rintro rfl
      rw [h.removed_mem he] at hw
      cases hw
    exact hb.distinct _ _ _ _ hne (h.removed_base he).1 hbase

section

variable {g : GenericIndex V} {rest : List (UndoState V)} (hs : g.stack = u :: rest) (h : Logged u base g.rows c)
  (hb : Legal key base u.oldNextId)

include hs h hb

lemma writeRows_old :
    (UndoSafe key g ↔ (writeRows (modifyRow key) g.rows u.oldValues.entries).2 = true) ∧
    ((writeRows (modifyRow key) g.rows u.oldValues.entries).2 = true →
      (writeRows (modifyRow key) g.rows u.oldValues.entries).1 = setRows g.rows u.oldValues.entries) := by
  have hd : ∀ e ∈ u.oldValues.entries, ∀ f ∈ u.oldValues.entries, e.1 ≠ f.1 → ¬ Clash key e.2 f.2 :=
    fun e he f hf hne => hb.distinct _ _ _ _ hne (h.old_base he) (h.old_base hf)
  obtain ⟨hiff, hrows⟩ := writeRows_modify g.rows u.oldValues.ascending hd
    (fun e he j w hw hj hn => h.below_old hb he hw hj hn)
  refine ⟨?_, hrows⟩
  rw [hiff, UndoSafe, hs]
  constructor
  · intro hu e he j w hj hw
    exact hu u rfl e he (j, w) ((g.rows.find?_eq_some_iff j w).mp hw) hj
  · rintro hu head hhead e he ⟨j, w⟩ hf hj
    cases hhead
    exact hu e he j w hj ((g.rows.find?_eq_some_iff j w).mpr hf)

lemma undo_iff :
    ((g.undo key).thrown = none ↔ UndoSafe key g) ∧
    (UndoSafe key g → (g.undo key).state =
      { stack := rest, revision := g.revision - 1, nextId := u.oldNextId, rows := base }) := by
  obtain ⟨hsafe, hrows⟩ := writeRows_old hs h hb
  rw [hsafe, GenericIndex.undo, hs]
  by_cases hok : (writeRows (modifyRow key) g.rows u.oldValues.entries).2 = true
  · simp only [if_pos hok, hrows hok, h.emplace_removed hb, if_true]
    exact ⟨iff_of_true trivial hok, fun _ => trivial⟩
  · simp only [if_neg hok]
    exact ⟨iff_of_false (by simp) hok, fun hu => absurd hu hok⟩

end

end

end XosChain.Chainbase
