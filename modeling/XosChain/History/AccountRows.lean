import XosChain.History.Plugin

namespace XosChain.History

open Lib List

def Plugin.Recordable (P : Plugin) (a : AccountName) : Prop := a + 1 < 2 ^ 64 ∧ a ≠ P.pastEnd.account

instance (P : Plugin) (a : AccountName) : Decidable (P.Recordable a) := inferInstanceAs (Decidable (_ ∧ _))

def Plugin.records (P : Plugin) (a : AccountName) (trace : BaseActionTrace) : Bool :=
  P.filter trace && decide (a ∈ P.accountSet trace)

def Sequenced (rows : List AccountHistory) (count : AccountName → ℕ) : Prop :=
  ∀ a z, (∃ r ∈ rows, r.account = a ∧ r.accountSequenceNum = z) ↔ 0 ≤ z ∧ z < count a

variable {P : Plugin} {t : Tables} {trace : BaseActionTrace}

lemma Plugin.itrAt_mem (P : Plugin) (rows : List AccountHistory) (n : AccountName) :
    P.itrAt rows n ∈ rows ∨ P.itrAt rows n = P.pastEnd := by
  rw [Plugin.itrAt]
  split
  · next r hr => exact .inl (mem_of_mem_filter (mem_of_find?_eq_some hr))
  · cases hfirst : rows.find? fun r => rows.all r.byAccountActionSeq with
    | none => exact .inr rfl
    | some r => exact .inl (mem_of_find?_eq_some hfirst)

namespace Sequenced

variable {rows : List AccountHistory} {count : AccountName → ℕ} {n : AccountName}

lemma next_eq (h : Sequenced rows count) (hn : P.Recordable n) :
    (if (P.itrAt rows n).account = n then (P.itrAt rows n).accountSequenceNum + 1 else 0) = count n := by
  obtain ⟨hlast, hend⟩ := hn
  by_cases hc : count n = 0
  · have hne : (P.itrAt rows n).account ≠ n := by
      obtain hmem | he := P.itrAt_mem rows n
      · intro ha
        have hz := (h n _).mp ⟨_, hmem, ha, rfl⟩
        omega
      · rw [he]
        exact hend.symm
    rw [if_neg hne, hc]
    rfl
  · have hbelow : ∀ r, r ∈ rows.filter (fun r => !AccountHistory.byAccountActionSeq ⟨(n + 1) % 2 ^ 64, 0, 0⟩ r) ↔
        r ∈ rows ∧ r.account ≤ n := by
      intro r
      rw [mem_filter, AccountHistory.byAccountActionSeq, Nat.mod_eq_of_lt hlast]
      refine and_congr_right fun hr => ?_
      have hz := (h r.account _).mp ⟨r, hr, rfl, rfl⟩
      rw [Bool.not_eq_true', decide_eq_false_iff_not]
      constructor
      · intro hnot
        by_contra hgt
        obtain hlt | he := (Nat.succ_le_of_lt (not_le.mp hgt)).lt_or_eq
        · exact hnot (.inl hlt)
        · exact hnot (.inr ⟨he, hz.1⟩)
      · rintro hle (hlt | ⟨he, -⟩)
        · exact absurd hlt (not_lt.mpr (hle.trans n.le_succ))
        · exact n.lt_irrefl (Nat.lt_of_lt_of_le (n.lt_succ_self.trans_eq he) hle)
    obtain ⟨r, hr, ha, hz⟩ := (h n (count n - 1)).mpr ⟨by omega, by omega⟩
    rw [Plugin.itrAt]
    split
    · next m hm =>
      obtain ⟨hmem, hle⟩ := (hbelow m).mp (mem_of_find?_eq_some hm)
      have hall := find?_some hm
      have hafter := all_eq_true.mp hall r ((hbelow r).mpr ⟨hr, ha.le⟩)
      rw [AccountHistory.byAccountActionSeq, decide_eq_true_eq] at hafter
      obtain hlt | ⟨he, hseq⟩ := hafter
      · exact absurd (ha ▸ hlt) (not_lt.mpr hle)
      · have hown : m.account = n := he.symm.trans ha
        have hmz := (h n _).mp ⟨m, hmem, hown, rfl⟩
        rw [if_pos hown]
        omega
    · next hnone =>
      refine absurd (find?_eq_none.mp hnone r ((hbelow r).mpr ⟨hr, ha.le⟩)) (not_not.mpr (all_eq_true.mpr ?_))
      intro m hm
      obtain ⟨hmem, hle⟩ := (hbelow m).mp hm
      rw [AccountHistory.byAccountActionSeq, decide_eq_true_eq]
      by_cases hown : m.account = n
      · have hmz := (h n _).mp ⟨m, hmem, hown, rfl⟩
        exact .inr ⟨hown.trans ha.symm, by omega⟩
      · exact .inl (ha ▸ lt_of_le_of_ne hle hown)

lemma fresh (h : Sequenced rows count) : ¬ ∃ r ∈ rows, r.account = n ∧ r.accountSequenceNum = count n := by
  intro he
  exact lt_irrefl _ ((h n (count n)).mp he).2

lemma append (h : Sequenced rows count) (n : AccountName) (g : ℕ) :
    Sequenced (rows ++ [⟨n, g, count n⟩]) fun a => count a + if a = n then 1 else 0 := by
  intro a z
  simp only [mem_append, mem_singleton, or_and_right, exists_or, h a z, exists_eq_left]
  by_cases ha : a = n
  · subst ha
    simp only [if_true, true_and]
    omega
  · simp [ha, Ne.symm ha]

lemma recordAccountAction_eq (h : Sequenced t.accountHistories count) (hn : P.Recordable n) (hc : count n < 2 ^ 31) :
    P.recordAccountAction trace n t =
      .ok () { t with accountHistories := t.accountHistories ++ [⟨n, trace.globalSequence, count n⟩] } := by
  have hget : (get : Handler Tables) t = .ok t t := rfl
  have hcut : (count n : ℤ).bmod (2 ^ 32) = count n := by
    apply Int.bmod_eq_of_le_mul_two <;> push_cast <;> omega
  rw [Plugin.recordAccountAction, bind_of_ok hget]
  rw [h.next_eq hn, hcut, createAccountHistory, bind_of_ok hget, if_neg h.fresh]
  rfl

lemma recordAccounts_eq (trace : BaseActionTrace) {l : List AccountName} (h : Sequenced t.accountHistories count) (hd : l.Nodup)
    (hl : ∀ a ∈ l, P.Recordable a ∧ count a < 2 ^ 31) :
    ∃ rows, (forM l (P.recordAccountAction trace) : Handler Unit) t = .ok () { t with accountHistories := rows } ∧
      Sequenced rows fun a => count a + if a ∈ l then 1 else 0 := by
  induction l generalizing t count with
  | nil => exact ⟨t.accountHistories, rfl, h⟩
  | cons n l ih =>
    obtain ⟨hnew, hd⟩ := nodup_cons.mp hd
    obtain ⟨hn, hc⟩ := hl n mem_cons_self
    have hrest : ∀ a ∈ l, P.Recordable a ∧ (count a + if a = n then 1 else 0) < 2 ^ 31 := by
      intro a ha
      rw [if_neg (ne_of_mem_of_not_mem ha hnew)]
      exact hl a (mem_cons_of_mem n ha)
    have hone := h.append n trace.globalSequence
    obtain ⟨rows, hrun, hrows⟩ := ih
      (t := { t with accountHistories := t.accountHistories ++ [⟨n, trace.globalSequence, count n⟩] }) hone hd hrest
    refine ⟨rows, ?_, ?_⟩
    · rw [forM_cons, bind_of_ok (h.recordAccountAction_eq hn hc)]
      exact hrun
    · convert hrows using 2 with a
      by_cases ha : a = n
      · simp [ha, hnew]
      · simp [ha]

lemma recordAction_eq (h : Sequenced t.accountHistories count)
    (hn : ∀ n ∈ t.actionSequenceNums, n ≠ trace.globalSequence)
    (hl : P.filter trace = true → ∀ a ∈ P.accountSet trace, P.Recordable a ∧ count a < 2 ^ 31) :
    ∃ nums rows, P.recordAction trace t = .ok () { t with actionSequenceNums := nums, accountHistories := rows } ∧
      (∀ n ∈ nums, n ∈ t.actionSequenceNums ∨ n = trace.globalSequence) ∧
      Sequenced rows fun a => count a + if P.records a trace then 1 else 0 := by
  rw [Plugin.recordAction]
  simp only [Plugin.records]
  split_ifs with hf
  · have hget : (get : Handler Tables) t = .ok t t := rfl
    have hd : (P.accountSet trace).Nodup := ((perm_insertionSort _ _).nodup_iff).mpr (nodup_dedup _)
    have hcreate : createActionHistory trace.globalSequence t =
        .ok () { t with actionSequenceNums := t.actionSequenceNums ++ [trace.globalSequence] } := by
      rw [createActionHistory, bind_of_ok hget, if_neg fun h => hn _ h rfl]
      rfl
    obtain ⟨rows, hrun, hrows⟩ := recordAccounts_eq trace
      (t := { t with actionSequenceNums := t.actionSequenceNums ++ [trace.globalSequence] }) h hd (hl hf)
    refine ⟨t.actionSequenceNums ++ [trace.globalSequence], rows, ?_, ?_, ?_⟩
    · rw [bind_of_ok hcreate]
      exact hrun
    · intro n hmem
      simpa using hmem
    · simpa [hf] using hrows
  · refine ⟨t.actionSequenceNums, t.accountHistories, rfl, fun n hmem => .inl hmem, ?_⟩
    simpa [hf] using h

end Sequenced

end XosChain.History
