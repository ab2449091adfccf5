import Mathlib.Data.List.Sort
import Mathlib.Tactic

namespace XosChain.Lib

open List

variable {α : Type} [LinearOrder α]

def below (x : α) (l : List α) : ℕ := l.countP (fun a => decide (a < x))

lemma below_perm {l l' : List α} (h : l.Perm l') (x : α) : below x l = below x l' :=
  h.countP_eq _

variable {l : List α} {k : ℕ}

lemma le_getElem_iff_below (hs : l.Pairwise (· ≤ ·)) (hk : k < l.length) (x : α) :
    x ≤ l[k] ↔ below x l ≤ k := by
  induction l generalizing k with
  | nil => simp at hk
  | cons a l ih =>
    have ha := pairwise_cons.mp hs
    by_cases hx : a < x
    · have hc : below x (a :: l) = below x l + 1 := by simp [below, hx]
      cases k with
      | zero => simp [hc, hx]
      | succ k =>
        rw [getElem_cons_succ, ih ha.2 (by simpa using hk), hc]
        omega
    · -- every element is at least `a`, so none of them is counted
      have hc : below x (a :: l) = 0 := by
        refine countP_eq_zero.mpr ?_
        intro b hb
        rcases mem_cons.mp hb with rfl | hb
        · simpa using hx
        · simpa using (not_lt.mp hx).trans (ha.1 b hb)
      rw [hc]
      refine iff_of_true ?_ (Nat.zero_le k)
      have hm : (a :: l)[k] ∈ a :: l := getElem_mem hk
      rcases mem_cons.mp hm with he | he
      · rw [he]; exact not_lt.mp hx
      · exact (not_lt.mp hx).trans (ha.1 _ he)

def orderStatistic (k : ℕ) (l : List α) : Option α := (l.insertionSort (· ≤ ·))[k]?

lemma orderStatistic_mem {a : α} (h : orderStatistic k l = some a) : a ∈ l :=
  (mem_insertionSort (· ≤ ·)).mp (mem_of_getElem? h)

lemma le_orderStatistic_iff {a : α} (h : orderStatistic k l = some a) (x : α) :
    x ≤ a ↔ below x l ≤ k := by
  obtain ⟨hk, ha⟩ := List.getElem?_eq_some_iff.mp h
  rw [← below_perm (List.perm_insertionSort (· ≤ ·) l) x, ← ha]
  exact le_getElem_iff_below (List.pairwise_insertionSort (· ≤ ·) l) hk x

lemma orderStatistic_isSome (h : k < l.length) : ∃ a, orderStatistic k l = some a := by
  have hk : k < (l.insertionSort (· ≤ ·)).length := by simpa using h
  exact ⟨_, getElem?_eq_getElem hk⟩

end XosChain.Lib
