import XosChain.Header.State

namespace XosChain.Header

open List

namespace BlockHeaderState

variable {counts : List ℕ}

lemma confirmLoop_none {i n : ℕ} (h : (confirmLoop counts i n).2 = none) :
    (confirmLoop counts i n).1.length = counts.length := by
  induction i generalizing counts n with
  | zero => simp [confirmLoop]
  | succ i ih =>
    cases n with
    | zero => simp [confirmLoop]
    | succ n =>
      simp only [confirmLoop] at h ⊢
      split_ifs at h ⊢
      rw [ih h, length_set]

lemma confirmLoop_some {i n j : ℕ} (h : (confirmLoop counts i n).2 = some j) :
    j < i ∧ (confirmLoop counts i n).1.length = counts.length - (j + 1) := by
  induction i generalizing counts n with
  | zero => simp [confirmLoop] at h
  | succ i ih =>
    cases n with
    | zero => simp [confirmLoop] at h
    | succ n =>
      simp only [confirmLoop] at h ⊢
      split_ifs at h ⊢ with hz
      · cases h
        exact ⟨Nat.lt_succ_self _, length_drop⟩
      · obtain ⟨hj, hl⟩ := ih h
        exact ⟨hj.trans (Nat.lt_succ_self i), by rw [hl, length_set]⟩

lemma growConfirmCount_length (counts : List ℕ) (required : ℕ) :
    0 < (growConfirmCount counts required).length ∧ (growConfirmCount counts required).length ≤ counts.length + 1 := by
  rw [growConfirmCount]
  split_ifs with h
  · simp
  · simp only [length_append, length_tail, length_singleton]
    omega

def remaining (count : ℕ) : ℕ := if count = 0 then 2 ^ 8 else count

lemma decrement_lt (count : ℕ) : decrement count < 2 ^ 8 := Nat.mod_lt _ (by decide)

lemma remaining_decrement {count : ℕ} (hb : count < 2 ^ 8) (hz : decrement count ≠ 0) :
    remaining (decrement count) + 1 = remaining count := by
  rw [remaining, if_neg hz, remaining]
  simp only [decrement, uint8Max] at hz ⊢
  split_ifs <;> omega

lemma remaining_of_decrement {count : ℕ} (hb : count < 2 ^ 8) (hz : decrement count = 0) : remaining count = 1 := by
  simp only [decrement, uint8Max] at hz
  rw [remaining, if_neg (by omega)]
  omega

lemma getElem?_set_decrement (counts : List ℕ) (i j : ℕ) :
    (counts.set i (decrement (counts.getD i 0)))[j]? = counts[j]?.map (fun x => if i = j then decrement x else x) := by
  rw [List.getElem?_set]
  by_cases hj : i = j
  · subst hj
    cases hc : counts[i]? with
    | none => simp [List.getElem?_eq_none_iff.mp hc]
    | some x =>
      obtain ⟨hi, hx⟩ := List.getElem?_eq_some_iff.mp hc
      simp [hi, hx]
  · simp [hj]

lemma confirmLoop_none_getElem? {i n : ℕ} (h : (confirmLoop counts i n).2 = none) (j : ℕ) :
    (confirmLoop counts i n).1[j]? = counts[j]?.map (fun x => if i ≤ j + n ∧ j < i then decrement x else x) := by
  induction i generalizing counts n with
  | zero => simp [confirmLoop]
  | succ i ih =>
    cases n with
    | zero =>
      have hj : ¬ (i + 1 ≤ j + 0 ∧ j < i + 1) := by omega
      simp only [confirmLoop, if_neg hj, Option.map_id']
    | succ n =>
      rw [confirmLoop] at h ⊢
      by_cases hz : decrement (counts.getD i 0) = 0
      · rw [if_pos hz] at h
        cases h
      · simp only [if_neg hz] at h ⊢
        rw [ih h, getElem?_set_decrement, Option.map_map]
        congr 1
        funext x
        by_cases hj : i = j
        · subst hj
          simp
        · have hiff : i ≤ j + n ∧ j < i ↔ i + 1 ≤ j + (n + 1) ∧ j < i + 1 := by omega
          simp only [Function.comp, if_neg hj, hiff]

lemma confirmLoop_some_getElem? {i n k : ℕ} (h : (confirmLoop counts i n).2 = some k) :
    k < i ∧ i ≤ k + n ∧ decrement (counts.getD k 0) = 0 ∧
    ∀ j, (confirmLoop counts i n).1[j]? = counts[k + 1 + j]?.map (fun x => if k + 1 + j < i then decrement x else x) := by
  induction i generalizing counts n with
  | zero => simp [confirmLoop] at h
  | succ i ih =>
    cases n with
    | zero => simp [confirmLoop] at h
    | succ n =>
      rw [confirmLoop] at h ⊢
      by_cases hz : decrement (counts.getD i 0) = 0
      · simp only [if_pos hz] at h ⊢
        obtain rfl := Option.some.inj h
        refine ⟨Nat.lt_succ_self i, by omega, hz, ?_⟩
        intro j
        have hj : ¬ i + 1 + j < i + 1 := by omega
        simp only [getElem?_drop, if_neg hj, Option.map_id']
      · simp only [if_neg hz] at h ⊢
        obtain ⟨hk, hn, hd, hj⟩ := ih h
        refine ⟨by omega, by omega, ?_, ?_⟩
        · rwa [getD_eq_getElem?_getD, getElem?_set_ne hk.ne', ← getD_eq_getElem?_getD] at hd
        · intro j
          rw [hj, getElem?_set_decrement, Option.map_map]
          congr 1
          funext x
          by_cases he : i = k + 1 + j
          · simp [← he]
          · have hiff : k + 1 + j < i ↔ k + 1 + j < i + 1 := by omega
            simp only [Function.comp, if_neg he, hiff]

lemma confirmLoop_ne_zero {i n j x : ℕ} (hx : counts[j]? = some x) (hj : j < i) (hn : i ≤ j + n)
    (h : ∀ k, (confirmLoop counts i n).2 = some k → k < j) : decrement x ≠ 0 := by
  induction i generalizing counts n with
  | zero => omega
  | succ i ih =>
    cases n with
    | zero => omega
    | succ n =>
      rw [confirmLoop] at h
      by_cases hz : decrement (counts.getD i 0) = 0
      · have hlt := h i (by rw [if_pos hz])
        omega
      · simp only [if_neg hz] at h
        by_cases he : i = j
        · subst he
          rwa [getD_eq_getElem?_getD, hx] at hz
        · refine ih ?_ (by omega) (by omega) h
          rw [getElem?_set_ne he]
          exact hx

lemma requiredConfs_remaining {schedule : ProducerSchedule} (h : schedule.producers.length ≤ 383) :
    remaining (requiredConfs schedule % 2 ^ 8) = requiredConfs schedule := by
  rw [remaining]
  split_ifs with h0
  · rw [requiredConfs] at h0 ⊢
    omega
  · rw [requiredConfs] at h0 ⊢
    omega

end BlockHeaderState

end XosChain.Header
