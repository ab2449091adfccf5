import XosChain.Chainbase.Refinement

namespace XosChain.Chainbase

open Lib FlatMap List

section

variable {ι V : Type} {K : ι → Type} {key : ∀ i, V → K i} [Fintype ι] [∀ i, DecidableEq (K i)] {rows : FlatMap ℕ V}
  {id : ℕ} {v : V}

lemma modifyRow_self (hd : Distinct key rows) (hv : rows.find? id = some v) : modifyRow key rows id v = (rows, true) := by
  have hfree : Free key rows id v := free_iff.mpr fun j w hw hj => hd id j v w hj.symm hv hw
  rw [modifyRow, if_pos hfree, set_eq_self hv]

open Classical in
lemma writeRows_filter (hd : Distinct key rows) {items : List (ℕ × V)} (ha : Ascending items) :
    writeRows (modifyRow key) rows items =
      writeRows (modifyRow key) rows (items.filter fun e => rows.find? e.1 ≠ some e.2) := by
  induction items generalizing rows with
  | nil => rfl
  | cons e items ih =>
    obtain ⟨hlt, ha⟩ := pairwise_cons.mp ha
    by_cases he : rows.find? e.1 = some e.2
    · rw [filter_cons_of_neg (by simpa using he), writeRows, modifyRow_self hd he]
      exact ih hd ha
    · rw [filter_cons_of_pos (by simpa using he), writeRows, writeRows]
      by_cases hfree : Free key rows e.1 e.2
      · have hlater : items.filter (fun f => rows.find? f.1 ≠ some f.2) =
            items.filter fun f => (rows.set e.1 e.2).find? f.1 ≠ some f.2 := by
          refine filter_congr fun f hf => ?_
          rw [find?_set_of_ne _ _ (hlt f hf).ne]
        simp only [modifyRow, if_pos hfree, if_true, hlater]
        exact ih (hd.set hfree) ha
      · simp only [modifyRow, if_neg hfree]
        rfl

section

variable {u u' : UndoState V} {base : FlatMap ℕ V} {c c' : ℕ → Change V} {e : ℕ × V}

lemma Logged.old_of_changed (h : Logged u base rows c) (h' : Logged u' base rows c') (he : e ∈ u.oldValues.entries)
    (hchanged : rows.find? e.1 ≠ some e.2) : e ∈ u'.oldValues.entries := by
  have hv := h.valid e.1
  have hv' := h'.valid e.1
  rw [h.old_mem he] at hv
  cases hc : c' e.1 with
  | nop =>
    rw [hc] at hv'
    exact absurd (hv'.symm.trans hv.1) hchanged
  | new =>
    rw [hc] at hv'
    cases hv.1.symm.trans hv'.1
  | upd x =>
    rw [hc] at hv'
    obtain rfl := Option.some.inj (hv.1.symm.trans hv'.1)
    have hold := (UndoState.entry_eq (h'.entry e.1)).2.1
    rw [hc] at hold
    exact (u'.oldValues.find?_eq_some_iff e.1 e.2).mp hold
  | del x =>
    rw [hc] at hv'
    exact absurd hv'.2 hv.2

open Classical in
lemma Logged.writeRows_eq (h : Logged u base rows c) (h' : Logged u' base rows c') (hd : Distinct key rows) :
    writeRows (modifyRow key) rows u.oldValues.entries = writeRows (modifyRow key) rows u'.oldValues.entries := by
  have hsame : u.oldValues.entries.filter (fun e => rows.find? e.1 ≠ some e.2) =
      u'.oldValues.entries.filter fun e => rows.find? e.1 ≠ some e.2 := by
    have ha := Pairwise.filter (fun e => decide (rows.find? e.1 ≠ some e.2)) u.oldValues.ascending
    have ha' := Pairwise.filter (fun e => decide (rows.find? e.1 ≠ some e.2)) u'.oldValues.ascending
    refine entries_ext ha ha' fun k => Option.ext fun w => ?_
    rw [lookup_eq_some_iff ha, lookup_eq_some_iff ha', mem_filter, mem_filter, decide_eq_true_iff]
    exact ⟨fun he => ⟨h.old_of_changed h' he.1 he.2, he.2⟩, fun he => ⟨h'.old_of_changed h he.1 he.2, he.2⟩⟩
  rw [writeRows_filter hd u.oldValues.ascending, hsame, ← writeRows_filter hd u'.oldValues.ascending]

end

end

section

variable {ι V : Type} {K : ι → Type}

def seen (a : Attempt (GenericIndex V)) : FlatMap ℕ V × ℕ × ℤ × Option Thrown :=
  (a.state.rows, a.state.nextId, a.state.revision, a.thrown)

lemma seen_eq {key : ∀ i, V → K i} {a b : Attempt (GenericIndex V)} {m : Machine V} (h : Sim key a.state m)
    (h' : Sim key b.state m) (ht : a.thrown = b.thrown) : seen a = seen b := by
  simp only [seen, h.rows, h'.rows, h.nextId, h'.nextId, h.revision, h'.revision, ht]

lemma Sim.same {key : ∀ i, V → K i} {g g' : GenericIndex V} {m : Machine V} (h : Sim key g m)
    (h' : Sim key g' m) :
    g.rows = g'.rows ∧ g.nextId = g'.nextId ∧ g.revision = g'.revision :=
  ⟨h.rows.trans h'.rows.symm, h.nextId.trans h'.nextId.symm, h.revision.trans h'.revision.symm⟩

variable (key : ∀ i, V → K i) [Fintype ι] [∀ i, DecidableEq (K i)]

def observed : GenericIndex V → List (Op V) → List (FlatMap ℕ V × ℕ × ℤ × Option Thrown)
  | _, [] => []
  | g, op :: ops =>
    seen (g.step key op) :: if (g.step key op).thrown = none then observed (g.step key op).state ops else []

variable {key} {g g' : GenericIndex V} {m : Machine V}

lemma Sim.next (h : Sim key g m) {op : Op V} (hs : (g.step key op).thrown = none) :
    Sim key (g.step key op).state (m.step op) := by
  cases ho : op.isUndo with
  | false => exact h.step ho hs
  | true =>
    obtain rfl : op = .undo := by cases op <;> simp_all [Op.isUndo]
    exact h.undo_iff.2 (h.undo_iff.1.mp hs)

lemma Sim.seen_undo (h : Sim key g m) (h' : Sim key g' m) : seen (g.undo key) = seen (g'.undo key) := by
  obtain ⟨hrows, hnext, hrev⟩ := h.same h'
  have hl := h.linked
  have hl' := h'.linked
  generalize m.saved = saved at hl hl'
  cases hs : g.stack with
  | nil =>
    rw [hs] at hl
    cases hl
    cases hs' : g'.stack with
    | nil => simp only [GenericIndex.undo, hs, hs', seen, hrows, hnext, hrev]
    | cons => rw [hs'] at hl'; cases hl'
  | cons u us =>
    rw [hs] at hl
    cases hs' : g'.stack with
    | nil => rw [hs'] at hl'; cases hl'; cases hl
    | cons u' us' =>
      rw [hs'] at hl'
      cases hl with
      | cons hlog hb hold =>
        cases hl' with
        | cons hlog' hb' hold' =>
          have hwrite := hlog.writeRows_eq (hrows ▸ hlog') h.legal.distinct
          have hsafe := (writeRows_old hs hlog (hold ▸ hb)).1
          have hsafe' := (writeRows_old hs' hlog' (hold' ▸ hb)).1
          rw [← hrows, ← hwrite] at hsafe'
          by_cases hok : UndoSafe key g
          · have hok' := hsafe'.mpr (hsafe.mp hok)
            exact seen_eq (h.undo_iff.2 hok) (h'.undo_iff.2 hok') ((h.undo_iff.1.mpr hok).trans (h'.undo_iff.1.mpr hok').symm)
          · rw [hsafe] at hok
            simp only [GenericIndex.undo, hs, hs', ← hrows, ← hwrite, if_neg hok, seen, hnext, hrev]

lemma Sim.seen_step (h : Sim key g m) (h' : Sim key g' m) (op : Op V) :
    seen (g.step key op) = seen (g'.step key op) := by
  obtain ⟨hrows, hnext, hrev⟩ := h.same h'
  cases op with
  | emplace c =>
    cases c with
    | error e => simp only [GenericIndex.step, GenericIndex.emplace, seen, hrows, hnext, hrev]
    | ok v =>
      simp only [GenericIndex.step, GenericIndex.emplace, hrows, hnext]
      split_ifs
      · simp only [seen, onTop_frame, hrev]
      · simp only [seen, hrows, hnext, hrev]
  | modify id f =>
    simp only [GenericIndex.step, GenericIndex.modify, hrows]
    cases g'.rows.find? id with
    | none => simp only [seen, hrows, hnext, hrev]
    | some v =>
      obtain ⟨w, t, hw⟩ : ∃ w t, f v = ⟨w, t⟩ := ⟨_, _, rfl⟩
      cases t <;> simp only [hw, seen, onTop_frame, hnext, hrev]
  | remove id =>
    simp only [GenericIndex.step, GenericIndex.remove, hrows]
    cases g'.rows.find? id with
    | none => simp only [seen, hrows, hnext, hrev]
    | some v => simp only [seen, onTop_frame, hnext, hrev]
  | startUndoSession => exact seen_eq (h.next rfl) (h'.next rfl) rfl
  | undo => exact h.seen_undo h'
  | squash => exact seen_eq (h.next rfl) (h'.next rfl) rfl
  | commit r => exact seen_eq (h.next rfl) (h'.next rfl) rfl

lemma Sim.observed_eq (h : Sim key g m) (h' : Sim key g' m) (ops : List (Op V)) :
    observed key g ops = observed key g' ops := by
  induction ops generalizing g g' m with
  | nil => rfl
  | cons op ops ih =>
    have hseen := h.seen_step h' op
    have hthrown : (g.step key op).thrown = (g'.step key op).thrown := congrArg (·.2.2.2) hseen
    rw [observed, observed, hseen, hthrown]
    by_cases hs : (g'.step key op).thrown = none
    · rw [if_pos hs, if_pos hs, ih (h.next (hthrown.trans hs)) (h'.next hs)]
    · rw [if_neg hs, if_neg hs]

end

section

variable {V : Type}

def Op.Writes (g : GenericIndex V) : Op V → Prop
  | .emplace _ => True
  | .modify id _ => g.rows.contains id = true
  | _ => False

def Op.ThrowsUnchanged (g : GenericIndex V) (op : Op V) : Prop :=
  ∃ id f v e, op = .modify id f ∧ g.rows.find? id = some v ∧ f v = ⟨v, some e⟩

variable {ι : Type} {K : ι → Type} {key : ∀ i, V → K i} [Fintype ι] [∀ i, DecidableEq (K i)] {g : GenericIndex V}

inductive Reached (key : ∀ i, V → K i) : GenericIndex V → Prop
  | init (revision : ℤ) : Reached key { revision }
  | step {g : GenericIndex V} (op : Op V) : Reached key g → (g.step key op).thrown = none →
      Reached key (g.step key op).state
  | failed {g : GenericIndex V} (op : Op V) : Reached key g → op.ThrowsUnchanged g → Reached key (g.step key op).state

lemma Sim.failed {m : Machine V} (h : Sim key g m) {op : Op V} (ho : op.ThrowsUnchanged g) :
    Sim key (g.step key op).state m := by
  obtain ⟨id, f, v, e, rfl, hv, hf⟩ := ho
  obtain ⟨hr, hn, hrev⟩ := onTop_frame (·.onModify id v) g
  have hstate : (g.step key (.modify id f)).state = GenericIndex.onTop (·.onModify id v) g := by
    simp only [GenericIndex.step, GenericIndex.modify, hv, hf, set_eq_self hv]
    rw [← hr]
  rw [hstate]
  refine ⟨hr.trans h.rows, hn.trans h.nextId, hrev.trans h.revision, ?_, ?_⟩
  · rw [hr, hn]
    exact h.legal
  · rw [hr, hn, hrev]
    refine h.linked.record (onModify_records id v) ?_ (fun _ _ => rfl) (by rintro ⟨⟩) le_rfl
    rw [hv]
    exact ⟨rfl, by simp⟩

lemma Reached.sim (h : Reached key g) : ∃ m, Sim key g m := by
  induction h with
  | init revision => exact ⟨_, .init key revision⟩
  | step op _ hs ih =>
    obtain ⟨m, hm⟩ := ih
    exact ⟨_, hm.next hs⟩
  | failed op _ ho ih =>
    obtain ⟨m, hm⟩ := ih
    exact ⟨m, hm.failed ho⟩

lemma emplace_of_throws {c : Except Thrown V} (h : (g.emplace key c).thrown ≠ none) : (g.emplace key c).state = g := by
  cases c with
  | error e => rfl
  | ok v =>
    simp only [GenericIndex.emplace] at h ⊢
    split_ifs at h ⊢
    · exact absurd rfl h
    · rfl

lemma modify_of_throws {id : ℕ} {f : V → Attempt V} {v : V} (hv : g.rows.find? id = some v)
    (h : (g.modify key id f).thrown ≠ none) (hrows : (g.modify key id f).state.rows = g.rows) :
    Op.ThrowsUnchanged g (.modify id f) := by
  obtain ⟨w, t, hw⟩ : ∃ w t, f v = ⟨w, t⟩ := ⟨_, _, rfl⟩
  replace hrows := congrArg (FlatMap.find? · id) hrows
  cases t with
  | some e =>
    simp only [GenericIndex.modify, hv, hw, find?_set_self, Option.some.injEq] at hrows
    subst hrows
    exact ⟨id, f, w, e, rfl, hv, hw⟩
  | none =>
    have hfree : ¬ Free key g.rows id w := by
      intro hfree
      simp [GenericIndex.modify, hv, hw, modifyRow, hfree] at h
    simp [GenericIndex.modify, hv, hw, modifyRow, if_neg hfree] at hrows

structure Unnoticed (key : ∀ i, V → K i) (g g' : GenericIndex V) : Prop where
  rows : g'.rows = g.rows
  nextId : g'.nextId = g.nextId
  later : ∀ ops : List (Op V), observed key g' ops = observed key g ops

theorem failed_write_unnoticed_iff (hg : Reached key g) (op : Op V) (hw : op.Writes g)
    (h : (g.step key op).thrown ≠ none) :
    Unnoticed key g (g.step key op).state ↔ (∃ c, op = .emplace c) ∨ op.ThrowsUnchanged g := by
  constructor
  · intro hsame
    cases op with
    | emplace c => exact .inl ⟨c, rfl⟩
    | modify id f =>
      obtain ⟨v, hv⟩ := Option.isSome_iff_exists.mp hw
      exact .inr (modify_of_throws hv h hsame.rows)
    | remove => cases hw
    | startUndoSession => cases hw
    | undo => cases hw
    | squash => cases hw
    | commit => cases hw
  · rintro (⟨c, rfl⟩ | hunchanged)
    · have hstate : (g.step key (.emplace c)).state = g := emplace_of_throws h
      rw [hstate]
      exact ⟨rfl, rfl, fun _ => rfl⟩
    · obtain ⟨m, hm⟩ := hg.sim
      have hm' := hm.failed hunchanged
      exact ⟨hm'.rows.trans hm.rows.symm, hm'.nextId.trans hm.nextId.symm, hm'.observed_eq hm⟩

def openSession : GenericIndex ℕ :=
  ((({} : GenericIndex ℕ).emplace numberKey (.ok 1)).state.emplace numberKey (.ok 2)).state.startUndoSession

lemma openSession_reached : Reached numberKey openSession :=
  .step .startUndoSession (.step (.emplace (.ok 2)) (.step (.emplace (.ok 1)) (.init 0) (by decide)) (by decide)) rfl

def interrupted : Op ℕ := .modify 0 fun v => ⟨v, some ⟨.logicError, "interrupted"⟩⟩

def refused : Op ℕ := .modify 0 fun _ => ⟨2, none⟩

theorem interrupted_modify_unnoticed :
    Reached numberKey openSession ∧
      interrupted.Writes openSession ∧ (openSession.step numberKey interrupted).thrown ≠ none ∧
      Unnoticed numberKey openSession (openSession.step numberKey interrupted).state ∧
      refused.Writes openSession ∧ (openSession.step numberKey refused).thrown ≠ none ∧
      ¬ Unnoticed numberKey openSession (openSession.step numberKey refused).state := by
  have hthrown : (openSession.step numberKey interrupted).thrown ≠ none := by decide
  have hthrown' : (openSession.step numberKey refused).thrown ≠ none := by decide
  refine ⟨openSession_reached, rfl, hthrown, ?_, rfl, hthrown', ?_⟩
  · rw [failed_write_unnoticed_iff openSession_reached interrupted rfl hthrown]
    exact .inr ⟨0, _, 1, _, rfl, rfl, rfl⟩
  · rw [failed_write_unnoticed_iff openSession_reached refused rfl hthrown']
    rintro (⟨c, ⟨⟩⟩ | ⟨id, f, v, e, ⟨⟩, -, ⟨⟩⟩)

theorem refused_modify_drops_row :
    (openSession.step numberKey refused).thrown ≠ none ∧ openSession.rows.find? 0 = some 1 ∧
      (openSession.step numberKey refused).state.rows.find? 0 = none := by
  decide

end

end XosChain.Chainbase
