import XosChain.Lib.FlatMap

namespace XosChain.Lib.FlatMap

open List

variable {κ ν ρ : Type} [LinearOrder κ] {m : FlatMap κ ν} {k : κ} {v : ν} {l : List ρ} {f : κ → ν → List ρ} {key : ρ → κ}

def rows (m : FlatMap κ ν) (f : κ → ν → List ρ) : List ρ := m.entries.flatMap (fun e => f e.1 e.2)

lemma mem_rows {r : ρ} : r ∈ m.rows f ↔ ∃ j w, m.find? j = some w ∧ r ∈ f j w := by
  simp only [rows, mem_flatMap, find?_eq_some_iff, Prod.exists]

section

variable (hf : ∀ j w, ∀ r ∈ f j w, key r = j)

include hf

lemma filter_rows_self (k : κ) (v : ν) :
    (f k v).filter (fun r => key r ≠ k) = [] := by
  apply filter_eq_nil_iff.mpr
  intro r hr
  simp [hf k v r hr]

lemma filter_rows_of_ne {j : κ} (hj : j ≠ k) (v : ν) :
    (f j v).filter (fun r => key r ≠ k) = f j v := by
  apply filter_eq_self.mpr
  intro r hr
  simp [hf j v r hr, hj]

lemma key_ne_of_mem_rows (h : m.find? k = none) {r : ρ} (hr : r ∈ m.rows f) :
    key r ≠ k := by
  obtain ⟨j, w, hj, hr⟩ := mem_rows.mp hr
  rw [hf j w r hr]
  rintro rfl
  simp [h] at hj

lemma rows_erase (m : FlatMap κ ν) (k : κ) :
    (m.erase k).rows f = (m.rows f).filter (fun r => key r ≠ k) := by
  obtain ⟨l, hl⟩ := m
  simp only [erase, rows]
  induction l with
  | nil => rfl
  | cons e l ih =>
    obtain ⟨hlt, hl⟩ := pairwise_cons.mp hl
    rw [flatMap_cons, filter_append, ← ih hl]
    by_cases he : e.1 = k
    · subst he
      rw [filter_rows_self hf, eraseEntry, if_pos rfl, nil_append, eraseEntry_of_lt hlt]
    · rw [filter_rows_of_ne hf he, eraseEntry, if_neg he, flatMap_cons]

end

def Derived (f : κ → ν → List ρ) (m : FlatMap κ ν) (l : List ρ) : Prop := l.Perm (m.rows f)

lemma derived_empty (f : κ → ν → List ρ) : Derived f empty [] := List.Perm.refl _

section

variable (hf : ∀ j w, ∀ r ∈ f j w, key r = j) (h : Derived f m l)

include hf h

lemma Derived.erase (k : κ) :
    Derived f (m.erase k) (l.filter (fun r => key r ≠ k)) := by
  rw [Derived, rows_erase hf]
  exact h.filter _

lemma Derived.set (k : κ) (v : ν) :
    Derived f (m.set k v) (l.filter (fun r => key r ≠ k) ++ f k v) := by
  have hset : ((m.set k v).rows f).Perm (f k v ++ (m.erase k).rows f) := (m.entries_set_perm k v).flatMap_right _
  exact (perm_append_comm.trans ((h.erase hf k).append_left (f k v))).trans hset.symm

lemma Derived.key_ne (hk : m.find? k = none) {r : ρ} (hr : r ∈ l) : key r ≠ k :=
  key_ne_of_mem_rows hf hk (h.mem_iff.mp hr)

lemma Derived.insert (hk : m.find? k = none) (v : ν) :
    Derived f (m.set k v) (l ++ f k v) := by
  have hl : l.filter (fun r => key r ≠ k) = l := by
    apply filter_eq_self.mpr
    intro r hr
    simpa using h.key_ne hf hk hr
  have hset := h.set hf k v
  rwa [hl] at hset

end

end XosChain.Lib.FlatMap
