import Mathlib.Data.List.Basic
import Mathlib.Order.Basic
import Mathlib.Tactic

namespace XosChain.Lib

open List

section

variable {α : Type} [LinearOrder α]

def insertSorted (x : α) : List α → List α
  | [] => [x]
  | y :: l => if x < y then x :: y :: l else if y < x then y :: insertSorted x l else y :: l

def unionStep (x : α) (next : List α → List α) : List α → List α
  | [] => x :: next []
  | y :: b => if x < y then x :: next (y :: b) else if y < x then y :: unionStep x next b else x :: next b

def setUnion : List α → List α → List α
  | [], b => b
  | x :: a, b => unionStep x (setUnion a) b

def differenceStep (x : α) (next : List α → List α) : List α → List α
  | [] => x :: next []
  | y :: b => if x < y then x :: next (y :: b) else if y < x then differenceStep x next b else next b

def setDifference : List α → List α → List α
  | [], _ => []
  | x :: a, b => differenceStep x (setDifference a) b

variable {x z : α} {a b : List α} {next : List α → List α}

lemma mem_insertSorted {l : List α} : z ∈ insertSorted x l ↔ z = x ∨ z ∈ l := by
  induction l with
  | nil => simp [insertSorted]
  | cons y l ih =>
    rw [insertSorted]
    split_ifs with hlt hgt
    · simp
    · simp only [mem_cons, ih]
      tauto
    · obtain rfl : x = y := le_antisymm (not_lt.mp hgt) (not_lt.mp hlt)
      simp

lemma insertSorted_ascending {l : List α} (h : l.Pairwise (· < ·)) : (insertSorted x l).Pairwise (· < ·) := by
  induction l with
  | nil => simp [insertSorted]
  | cons y l ih =>
    obtain ⟨hy, hl⟩ := pairwise_cons.mp h
    rw [insertSorted]
    split_ifs with hlt hgt
    · refine pairwise_cons.mpr ⟨fun z hz => ?_, h⟩
      rcases mem_cons.mp hz with rfl | hz
      · exact hlt
      · exact hlt.trans (hy z hz)
    · refine pairwise_cons.mpr ⟨fun z hz => ?_, ih hl⟩
      rcases mem_insertSorted.mp hz with rfl | hz
      · exact hgt
      · exact hy z hz
    · exact h

lemma mem_unionStep (hnext : ∀ b, z ∈ next b ↔ z ∈ a ∨ z ∈ b) : z ∈ unionStep x next b ↔ z ∈ x :: a ∨ z ∈ b := by
  induction b with
  | nil => simp [unionStep, hnext]
  | cons y b ih =>
    rw [unionStep]
    split_ifs with hlt hgt
    · simp only [mem_cons, hnext]
      tauto
    · simp only [mem_cons, ih]
      tauto
    · obtain rfl : x = y := le_antisymm (not_lt.mp hgt) (not_lt.mp hlt)
      simp only [mem_cons, hnext]
      tauto

lemma mem_setUnion : z ∈ setUnion a b ↔ z ∈ a ∨ z ∈ b := by
  induction a generalizing b with
  | nil => simp [setUnion]
  | cons x a ih => exact mem_unionStep fun b => ih

lemma unionStep_ascending (hx : ∀ z ∈ a, x < z) (hb : b.Pairwise (· < ·))
    (hmem : ∀ z b, z ∈ next b ↔ z ∈ a ∨ z ∈ b) (hnext : ∀ b, b.Pairwise (· < ·) → (next b).Pairwise (· < ·)) :
    (unionStep x next b).Pairwise (· < ·) := by
  induction b with
  | nil =>
    refine pairwise_cons.mpr ⟨fun z hz => hx z ?_, hnext _ hb⟩
    simpa [hmem] using hz
  | cons y b ih =>
    obtain ⟨hy, hb'⟩ := pairwise_cons.mp hb
    rw [unionStep]
    split_ifs with hlt hgt
    · refine pairwise_cons.mpr ⟨fun z hz => ?_, hnext _ hb⟩
      rcases (hmem z _).mp hz with hz | hz
      · exact hx z hz
      · rcases mem_cons.mp hz with rfl | hz
        · exact hlt
        · exact hlt.trans (hy z hz)
    · refine pairwise_cons.mpr ⟨fun z hz => ?_, ih hb'⟩
      rcases (mem_unionStep (hmem z)).mp hz with hz | hz
      · rcases mem_cons.mp hz with rfl | hz
        · exact hgt
        · exact hgt.trans (hx z hz)
      · exact hy z hz
    · obtain rfl : x = y := le_antisymm (not_lt.mp hgt) (not_lt.mp hlt)
      refine pairwise_cons.mpr ⟨fun z hz => ?_, hnext _ hb'⟩
      exact ((hmem z _).mp hz).elim (hx z) (hy z)

lemma setUnion_ascending (ha : a.Pairwise (· < ·)) (hb : b.Pairwise (· < ·)) :
    (setUnion a b).Pairwise (· < ·) := by
  induction a generalizing b with
  | nil => exact hb
  | cons x a ih =>
    obtain ⟨hx, ha⟩ := pairwise_cons.mp ha
    exact unionStep_ascending hx hb (fun _ _ => mem_setUnion) fun _ hb => ih ha hb

lemma differenceStep_sublist (hnext : ∀ b, (next b).Sublist a) : (differenceStep x next b).Sublist (x :: a) := by
  induction b with
  | nil => exact (hnext []).cons_cons x
  | cons y b ih =>
    rw [differenceStep]
    split_ifs
    · exact (hnext _).cons_cons x
    · exact ih
    · exact (hnext b).cons x

lemma setDifference_sublist : (setDifference a b).Sublist a := by
  induction a generalizing b with
  | nil => exact List.Sublist.refl _
  | cons x a ih => exact differenceStep_sublist fun _ => ih

lemma mem_differenceStep (hx : ∀ z ∈ a, x < z) (hb : b.Pairwise (· < ·))
    (hnext : ∀ b, b.Pairwise (· < ·) → (z ∈ next b ↔ z ∈ a ∧ z ∉ b)) :
    z ∈ differenceStep x next b ↔ z ∈ x :: a ∧ z ∉ b := by
  induction b with
  | nil => simp [differenceStep, hnext [] hb]
  | cons y b ih =>
    obtain ⟨hy, hb'⟩ := pairwise_cons.mp hb
    rw [differenceStep]
    split_ifs with hlt hgt
    · have hxb : x ∉ y :: b := by
        intro hm
        rcases mem_cons.mp hm with rfl | hm
        · exact lt_irrefl x hlt
        · exact lt_asymm hlt (hy x hm)
      rw [mem_cons, mem_cons, hnext _ hb]
      constructor
      · rintro (rfl | ⟨hz, hn⟩)
        · exact ⟨.inl rfl, hxb⟩
        · exact ⟨.inr hz, hn⟩
      · rintro ⟨rfl | hz, hn⟩
        · exact .inl rfl
        · exact .inr ⟨hz, hn⟩
    · rw [ih hb', mem_cons (a := z) (b := y), not_or]
      constructor
      · rintro ⟨hz, hn⟩
        refine ⟨hz, ?_, hn⟩
        rintro rfl
        rcases mem_cons.mp hz with rfl | hz
        · exact lt_irrefl z hgt
        · exact lt_asymm hgt (hx z hz)
      · rintro ⟨hz, -, hn⟩
        exact ⟨hz, hn⟩
    · obtain rfl : x = y := le_antisymm (not_lt.mp hgt) (not_lt.mp hlt)
      rw [hnext b hb', mem_cons, mem_cons, not_or]
      constructor
      · rintro ⟨hz, hn⟩
        exact ⟨.inr hz, (hx z hz).ne', hn⟩
      · rintro ⟨hz, hne, hn⟩
        exact ⟨hz.resolve_left hne, hn⟩

lemma mem_setDifference (ha : a.Pairwise (· < ·)) (hb : b.Pairwise (· < ·)) :
    z ∈ setDifference a b ↔ z ∈ a ∧ z ∉ b := by
  induction a generalizing b with
  | nil => simp [setDifference]
  | cons x a ih =>
    obtain ⟨hx, ha⟩ := pairwise_cons.mp ha
    exact mem_differenceStep hx hb fun _ hb => ih ha hb

end

structure FlatSet (α : Type) [LinearOrder α] where
  items : List α
  ascending : items.Pairwise (· < ·)
  deriving DecidableEq

namespace FlatSet

variable {α : Type} [LinearOrder α] {s t : FlatSet α} {x z : α}

instance : Membership α (FlatSet α) := ⟨fun s x => x ∈ s.items⟩

def empty : FlatSet α := ⟨[], List.Pairwise.nil⟩

def size (s : FlatSet α) : ℕ := s.items.length

def insert (s : FlatSet α) (x : α) : FlatSet α := ⟨insertSorted x s.items, insertSorted_ascending s.ascending⟩

def union (s t : FlatSet α) : FlatSet α := ⟨setUnion s.items t.items, setUnion_ascending s.ascending t.ascending⟩

def diff (s t : FlatSet α) : FlatSet α :=
  ⟨setDifference s.items t.items, s.ascending.sublist setDifference_sublist⟩

@[simp] lemma mem_empty : ¬ z ∈ (empty : FlatSet α) := not_mem_nil

@[simp] lemma mem_insert : z ∈ s.insert x ↔ z = x ∨ z ∈ s := mem_insertSorted

@[simp] lemma mem_union : z ∈ s.union t ↔ z ∈ s ∨ z ∈ t := mem_setUnion

@[simp] lemma mem_diff : z ∈ s.diff t ↔ z ∈ s ∧ z ∉ t := mem_setDifference s.ascending t.ascending

lemma ext_mem (h : ∀ z, z ∈ s ↔ z ∈ t) : s = t := by
  obtain ⟨a, ha⟩ := s
  obtain ⟨b, hb⟩ := t
  have he : a = b := by
    refine List.Perm.eq_of_pairwise (fun x y _ _ hxy hyx => absurd (hxy.trans hyx) (lt_irrefl _)) ha hb ?_
    exact (perm_ext_iff_of_nodup (ha.imp fun h => h.ne) (hb.imp fun h => h.ne)).mpr h
  subst he
  rfl

lemma empty_union : empty.union s = s := ext_mem (by simp)

lemma diff_empty : s.diff empty = s := ext_mem (by simp)

lemma mem_foldl_insert (l : List α) : z ∈ l.foldl insert s ↔ z ∈ l ∨ z ∈ s := by
  induction l generalizing s with
  | nil => simp
  | cons x l ih =>
    rw [foldl_cons, ih, mem_insert, mem_cons]
    tauto

lemma foldl_insert_items : s.items.foldl insert empty = s := by
  apply ext_mem
  intro z
  rw [mem_foldl_insert]
  exact or_iff_left mem_empty

end FlatSet

end XosChain.Lib
