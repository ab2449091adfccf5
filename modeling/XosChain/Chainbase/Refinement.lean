import XosChain.Chainbase.Linked

namespace XosChain.Chainbase

open Lib FlatMap Linked

section

variable {ι V : Type} {K : ι → Type} {key : ∀ i, V → K i} {rows : FlatMap ℕ V} {id : ℕ}

structure Sim (key : ∀ i, V → K i) (g : GenericIndex V) (m : Machine V) : Prop where
  rows : g.rows = m.rows
  nextId : g.nextId = m.nextId
  revision : g.revision = m.revision
  legal : Legal key g.rows g.nextId
  linked : Linked key g.rows g.nextId g.revision g.stack m.saved

lemma Sim.agree {g : GenericIndex V} {m : Machine V} (h : Sim key g m) : Agree g m :=
  ⟨h.rows, h.nextId, h.revision, h.linked.revisions⟩

lemma Sim.init (key : ∀ i, V → K i) (revision : ℤ) : Sim key { revision } { revision } where
  rows := rfl
  nextId := rfl
  revision := rfl
  legal := by
    refine ⟨?_, ?_⟩
    · intro i j v w _ hi
      cases hi
    · intro i v hi
      cases hi
  linked := .nil

lemma onTop_frame (f : UndoState V → UndoState V) (g : GenericIndex V) :
    (GenericIndex.onTop f g).rows = g.rows ∧ (GenericIndex.onTop f g).nextId = g.nextId ∧
    (GenericIndex.onTop f g).revision = g.revision := by
  rw [GenericIndex.onTop]
  cases g.stack <;> exact ⟨rfl, rfl, rfl⟩

lemma Distinct.set {v : V} (h : Distinct key rows) (hf : Free key rows id v) : Distinct key (rows.set id v) := by
  rw [free_iff] at hf
  intro i j x y hij hx hy
  obtain ⟨rfl, rfl⟩ | ⟨hi, hx⟩ := find?_set_some hx <;> obtain ⟨rfl, rfl⟩ | ⟨hj, hy⟩ := find?_set_some hy
  · exact absurd rfl hij
  · exact hf j y hy (Ne.symm hj)
  · exact fun hc => hf i x hx (Ne.symm hi) hc.symm
  · exact h i j x y hij hx hy

lemma Legal.set {nextId nextId' : ℕ} {v : V} (h : Legal key rows nextId) (hf : Free key rows id v)
    (hle : nextId ≤ nextId') (hid : id < nextId') : Legal key (rows.set id v) nextId' :=
  ⟨h.distinct.set hf, forall_set (fun i x hx => (h.below i x hx).trans_le hle) hid⟩

lemma Legal.erase {nextId : ℕ} (h : Legal key rows nextId) (id : ℕ) :
    Legal key (rows.erase id) nextId := by
  refine ⟨?_, forall_erase h.below⟩
  intro i j x y hij hx hy
  exact h.distinct i j x y hij (find?_erase_some hx).2 (find?_erase_some hy).2

variable {g : GenericIndex V} {m : Machine V}

lemma Sim.remove (h : Sim key g m) (hs : (g.remove id).thrown = none) :
    Sim key (g.remove id).state (m.step (.remove id)) := by
  cases hv : g.rows.find? id with
  | none => simp [GenericIndex.remove, hv] at hs
  | some v =>
    obtain ⟨hr, hn, hrev⟩ := onTop_frame (·.onRemove id v) g
    simp only [GenericIndex.remove, hv]
    refine
      { rows := by rw [h.rows]; rfl
        nextId := hn.trans h.nextId
        revision := hrev.trans h.revision
        legal := ?_
        linked := ?_ }
    · rw [hn]
      exact h.legal.erase id
    · rw [hn, hrev]
      refine record h.linked (onRemove_records id v) ?_ ?_ ?_ le_rfl
      · rw [hv, find?_erase_self]
        exact ⟨rfl, rfl⟩
      · intro j hj
        exact find?_erase_of_ne _ hj
      · intro hc
        cases hc

lemma Sim.startUndoSession (h : Sim key g m) : Sim key g.startUndoSession (m.step .startUndoSession) where
  rows := h.rows
  nextId := h.nextId
  revision := congrArg (· + 1) h.revision
  legal := h.legal
  linked := by
    have hlog : Logged { oldNextId := g.nextId, revision := g.revision + 1 } m.rows g.rows (fun _ => .nop) :=
      ⟨fun _ => rfl, fun i => by rw [h.rows]; rfl, fun _ hc => by cases hc⟩
    refine .cons (s := ⟨m.rows, m.nextId, m.revision + 1⟩) hlog ?_ h.nextId h.nextId.ge rfl
      (congrArg (· + 1) h.revision.symm) ?_
    · exact h.rows ▸ h.nextId ▸ h.legal
    · have hrev : g.startUndoSession.revision - 1 = g.revision := add_sub_cancel_right _ _
      rw [hrev]
      exact h.rows ▸ h.nextId ▸ h.linked

lemma Sim.squash (h : Sim key g m) : Sim key g.squash (m.step .squash) := by
  obtain ⟨stack, revision, nextId, rows⟩ := g
  obtain ⟨rows', nextId', revision', saved⟩ := m
  obtain ⟨hr, hn, hv, hlegal, hl⟩ := h
  cases hl with
  | nil => exact ⟨hr, hn, hv, hlegal, .nil⟩
  | cons hlog hb hold hnext hru hrs hrest =>
    cases hrest with
    | nil => exact ⟨hr, hn, congrArg (· - 1) hv, hlegal, .nil⟩
    | cons hlog' hb' hold' hnext' hru' hrs' hrest' =>
      exact ⟨hr, hn, congrArg (· - 1) hv, hlegal,
        (cons hlog hb hold hnext hru hrs (.cons hlog' hb' hold' hnext' hru' hrs' hrest')).squash⟩

lemma Sim.commit (h : Sim key g m) (r : ℤ) : Sim key (g.commit r) (m.step (.commit r)) where
  rows := h.rows
  nextId := h.nextId
  revision := h.revision
  legal := h.legal
  linked := h.linked.commit r

variable [Fintype ι] [∀ i, DecidableEq (K i)]

lemma Sim.emplace (h : Sim key g m) {c : Except Thrown V} (hs : (g.emplace key c).thrown = none) :
    Sim key (g.emplace key c).state (m.step (.emplace c)) := by
  cases c with
  | error e => cases hs
  | ok v =>
    rw [GenericIndex.emplace] at hs ⊢
    by_cases hok : g.rows.contains g.nextId = false ∧ Free key g.rows g.nextId v
    · simp only [emplaceRow, if_pos hok, if_true]
      obtain ⟨hr, hn, hv⟩ := onTop_frame (·.onCreate g.nextId)
        { g with rows := g.rows.set g.nextId v, nextId := g.nextId + 1 }
      have hnone : g.rows.find? g.nextId = none := by
        cases hf : g.rows.find? g.nextId with
        | none => rfl
        | some x => exact absurd (h.legal.below _ x hf) (lt_irrefl _)
      refine
        { rows := hr.trans ?_
          nextId := hn.trans ?_
          revision := hv.trans h.revision
          legal := ?_
          linked := ?_ }
      · rw [h.rows, h.nextId]
        rfl
      · rw [h.nextId]
        rfl
      · rw [hr, hn]
        exact h.legal.set hok.2 (Nat.le_succ _) (Nat.lt_succ_self _)
      · rw [hr, hn, hv]
        refine record (g := { g with rows := g.rows.set g.nextId v, nextId := g.nextId + 1 }) h.linked
          (onCreate_records g.nextId) ?_ ?_ ?_ (Nat.le_succ _)
        · rw [hnone, find?_set_self]
          exact ⟨rfl, by simp⟩
        · intro j hj
          exact find?_set_of_ne _ _ hj
        · exact fun _ => le_rfl
    · simp [emplaceRow, hok] at hs

lemma Sim.modify (h : Sim key g m) {f : V → Attempt V} (hs : (g.modify key id f).thrown = none) :
    Sim key (g.modify key id f).state (m.step (.modify id f)) := by
  cases hv : g.rows.find? id with
  | none => simp [GenericIndex.modify, hv] at hs
  | some v =>
    obtain ⟨w, _ | e, hw⟩ : ∃ w t, f v = ⟨w, t⟩ := ⟨_, _, rfl⟩
    case some => simp [GenericIndex.modify, hv, hw] at hs
    case none =>
      by_cases hok : Free key g.rows id w
      · obtain ⟨hr, hn, hrev⟩ := onTop_frame (·.onModify id v) g
        have hstep : m.step (.modify id f) = { m with rows := m.rows.set id w } := by
          simp only [Machine.step, ← h.rows, hv, Option.map_some, hw]
        simp only [GenericIndex.modify, hv, hw, modifyRow, if_pos hok, hstep]
        refine
          { rows := by rw [h.rows]
            nextId := hn.trans h.nextId
            revision := hrev.trans h.revision
            legal := ?_
            linked := ?_ }
        · rw [hn]
          exact h.legal.set hok le_rfl (h.legal.below id v hv)
        · rw [hn, hrev]
          refine record h.linked (onModify_records id v) ?_ ?_ ?_ le_rfl
          · rw [hv, find?_set_self]
            exact ⟨rfl, by simp⟩
          · intro j hj
            exact find?_set_of_ne _ _ hj
          · intro hc
            cases hc
      · simp [GenericIndex.modify, hv, hw, modifyRow, hok] at hs

lemma Sim.undo_iff (h : Sim key g m) :
    ((g.undo key).thrown = none ↔ UndoSafe key g) ∧
    (UndoSafe key g → Sim key (g.undo key).state (m.step .undo)) := by
  have hl := h.linked
  rw [Machine.step]
  generalize hss : m.saved = ss at hl ⊢
  cases hs : g.stack with
  | nil =>
    have hund : g.undo key = ⟨g, none⟩ := by rw [GenericIndex.undo, hs]
    have hsafe : UndoSafe key g := by
      intro head hhead
      rw [hs] at hhead
      cases hhead
    rw [hs] at hl
    cases hl
    rw [hund]
    exact ⟨iff_of_true rfl hsafe, fun _ => h⟩
  | cons u us =>
    rw [hs] at hl
    cases hl with
    | cons hlog hb hold hnext hru hrs hrest =>
      rename_i s ss c
      obtain ⟨hiff, hstate⟩ := Chainbase.undo_iff hs hlog (hold ▸ hb)
      refine ⟨hiff, fun hsafe => ?_⟩
      rw [hstate hsafe]
      exact ⟨rfl, hold, congrArg (· - 1) hrs.symm, hold ▸ hb, hold ▸ hrest⟩

lemma Sim.step (h : Sim key g m) {op : Op V} (ho : op.isUndo = false) (hs : (g.step key op).thrown = none) :
    Sim key (g.step key op).state (m.step op) := by
  cases op with
  | emplace c => exact h.emplace hs
  | modify id f => exact h.modify hs
  | remove id => exact h.remove hs
  | startUndoSession => exact h.startUndoSession
  | undo => cases ho
  | squash => exact h.squash
  | commit r => exact h.commit r

lemma Sim.simulates_iff {ops : List (Op V)} (h : Sim key g m) (hc : CallsSucceed key g ops) :
    Simulates key g m ops ↔ UndosSafe key g ops := by
  induction ops generalizing g m with
  | nil => exact iff_of_true h.agree trivial
  | cons op ops ih =>
    simp only [Simulates, UndosSafe]
    cases ho : op.isUndo with
    | false =>
      have hs := hc.1 ho
      simp only [h.agree, hs, true_and, Bool.false_eq_true, false_implies]
      exact ih (h.step ho hs) hc.2
    | true =>
      obtain rfl : op = .undo := by cases op <;> simp_all [Op.isUndo]
      obtain ⟨hiff, hsim⟩ := h.undo_iff
      simp only [h.agree, true_and, forall_const]
      constructor
      · rintro ⟨ht, hrest⟩
        have hsafe := hiff.mp ht
        exact ⟨hsafe, (ih (hsim hsafe) hc.2).mp hrest⟩
      · rintro ⟨hsafe, hrest⟩
        exact ⟨hiff.mpr hsafe, (ih (hsim hsafe) hc.2).mpr hrest⟩

theorem simulates_iff_undosSafe (revision : ℤ) (ops : List (Op V)) (hc : CallsSucceed key { revision } ops) :
    Simulates key { revision } { revision } ops ↔ UndosSafe key { revision } ops :=
  (Sim.init key revision).simulates_iff hc

end

section

def numberKey (_ : Unit) (v : ℕ) : ℕ := v

def squashedSession : List (Op ℕ) :=
  [.emplace (.ok 1), .startUndoSession, .modify 0 (fun _ => ⟨2, none⟩), .startUndoSession, .remove 0, .emplace (.ok 2),
    .squash, .undo]

theorem squashedSession_simulates :
    CallsSucceed numberKey {} squashedSession ∧ Simulates numberKey {} {} squashedSession := by
  have hc : CallsSucceed numberKey {} squashedSession := by decide
  exact ⟨hc, (simulates_iff_undosSafe 0 squashedSession hc).mpr (by decide)⟩

def takenKey : List (Op ℕ) :=
  [.emplace (.ok 1), .startUndoSession, .modify 0 (fun _ => ⟨2, none⟩), .emplace (.ok 1), .undo]

theorem takenKey_not_simulates :
    CallsSucceed numberKey {} takenKey ∧ ¬ Simulates numberKey {} {} takenKey := by
  refine ⟨by decide, ?_⟩
  rintro ⟨_, _, _, _, _, _, _, _, _, ht, _⟩
  exact absurd ht (by decide)

end

end XosChain.Chainbase
