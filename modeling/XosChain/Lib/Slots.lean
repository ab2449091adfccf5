import XosChain.Lib.FlatMap

namespace XosChain.Lib

open List

lemma getElem?_set_none {α : Type} {l : List (Option α)} {i m : ℕ} {a : α} (h : (l.set i none)[m]? = some (some a)) :
    i ≠ m ∧ l[m]? = some (some a) := by
  rw [getElem?_set] at h
  split_ifs at h with hi
  · cases h
  · exact ⟨hi, h⟩

structure Slots (κ ι : Type) [LinearOrder κ] where
  slots : List (Option κ)
  labels : FlatMap κ ι
  unique : ∀ (i j : ℕ) (k : κ), slots[i]? = some (some k) → slots[j]? = some (some k) → i = j
  labelled : ∀ k, labels.contains k = true ↔ some k ∈ slots

namespace Slots

variable {κ ι : Type} [LinearOrder κ] {s : Slots κ ι} {i : ℕ} {j k : κ}

def empty : Slots κ ι where
  slots := []
  labels := FlatMap.empty
  unique := by simp
  labelled := by
    intro k
    simp [FlatMap.contains, FlatMap.find?, FlatMap.empty, lookup]

instance : Inhabited (Slots κ ι) := ⟨empty⟩

def holder (s : Slots κ ι) (i : ℕ) : Option κ := s.slots[i]?.join

lemma holder_eq_some : s.holder i = some k ↔ s.slots[i]? = some (some k) := by
  rw [holder, Option.join_eq_some_iff]

lemma mem_of_holder (h : s.holder i = some k) : some k ∈ s.slots := mem_of_getElem? (holder_eq_some.mp h)

lemma not_mem_of_label (h : s.labels.find? k = none) : some k ∉ s.slots := by
  intro hm
  have hc := (s.labelled k).mpr hm
  rw [FlatMap.contains, h] at hc
  cases hc

def add (s : Slots κ ι) (label : ℕ → ι) (k : κ) : ι × Slots κ ι :=
  match h : s.labels.find? k with
  | some l => (l, s)
  | none => (label s.slots.length,
    { slots := s.slots ++ [some k]
      labels := s.labels.set k (label s.slots.length)
      unique := by
        have hn := not_mem_of_label h
        intro i j k' hi hj
        rw [List.getElem?_append] at hi hj
        split_ifs at hi hj with hi' hj' hj'
        · exact s.unique i j k' hi hj
        · have hk : k' = k := by simpa using List.mem_of_getElem? hj
          exact absurd (List.mem_of_getElem? hi) (hk ▸ hn)
        · have hk : k' = k := by simpa using List.mem_of_getElem? hi
          exact absurd (List.mem_of_getElem? hj) (hk ▸ hn)
        · have hi := (List.getElem?_eq_some_iff.mp hi).1
          have hj := (List.getElem?_eq_some_iff.mp hj).1
          rw [List.length_singleton] at hi hj
          omega
      labelled := by
        intro k'
        rw [FlatMap.contains, FlatMap.find?_set, List.mem_append]
        split_ifs with hk
        · simp [hk]
        · rw [← FlatMap.contains, s.labelled]
          simp [Ne.symm hk] })

lemma mem_add (label : ℕ → ι) (h : some j ∈ (s.add label k).2.slots) : j = k ∨ some j ∈ s.slots := by
  rw [add] at h
  split at h
  · exact .inr h
  · rcases mem_append.mp h with h | h
    · exact .inr h
    · exact .inl (by simpa using h)

lemma mem_set_iff (h : s.holder i = some k) : some j ∈ s.slots.set i none ↔ some j ∈ s.slots ∧ j ≠ k := by
  constructor
  · intro hm
    obtain ⟨m, hm⟩ := mem_iff_getElem?.mp hm
    obtain ⟨hi, hm⟩ := getElem?_set_none hm
    refine ⟨mem_of_getElem? hm, ?_⟩
    rintro rfl
    exact hi (s.unique i m j (holder_eq_some.mp h) hm)
  · rintro ⟨hm, hne⟩
    obtain ⟨m, hm⟩ := mem_iff_getElem?.mp hm
    refine mem_iff_getElem?.mpr ⟨m, ?_⟩
    rw [getElem?_set_ne, hm]
    rintro rfl
    rw [holder_eq_some.mp h] at hm
    exact hne (by simpa using hm.symm)

def free (s : Slots κ ι) (i : ℕ) : Slots κ ι :=
  match h : s.holder i with
  | none => s
  | some k =>
    { slots := s.slots.set i none
      labels := s.labels.erase k
      unique := by
        intro m n k' hm hn
        exact s.unique m n k' (getElem?_set_none hm).2 (getElem?_set_none hn).2
      labelled := by
        intro k'
        rw [mem_set_iff h, ← s.labelled, FlatMap.contains, FlatMap.find?_erase]
        split_ifs with hk
        · simp [hk]
        · rw [FlatMap.contains]
          simp [Ne.symm hk] }

lemma mem_free (h : s.holder i = some k) (hm : some j ∈ (s.free i).slots) : some j ∈ s.slots ∧ j ≠ k := by
  rw [free] at hm
  split at hm
  · rename_i hn
    rw [hn] at h
    cases h
  · rename_i k' hk
    obtain rfl := Option.some.inj (h.symm.trans hk)
    exact (mem_set_iff h).mp hm

end Slots

end XosChain.Lib
