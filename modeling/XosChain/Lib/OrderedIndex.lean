import Mathlib.Data.List.Sort
import Mathlib.Order.Basic

namespace XosChain.Lib

open List

variable {ν κ K : Type} [LinearOrder K] [DecidableEq κ]

def Ordered (key : ν → K) (l : List ν) : Prop := l.Pairwise (fun a b => key a ≤ key b)

instance (key : ν → K) (l : List ν) : Decidable (Ordered key l) := by
  unfold Ordered
  infer_instance

def insertUpper (key : ν → K) (a : ν) (l : List ν) : List ν := l.orderedInsert (fun a b => key a < key b) a

def mapRow (ident : ν → κ) (i : κ) (f : ν → ν) (l : List ν) : List ν :=
  l.map (fun s => if ident s = i then f s else s)

def eraseRow (ident : ν → κ) (i : κ) (l : List ν) : List ν := l.filter (fun s => ident s ≠ i)

def findRow (ident : ν → κ) (i : κ) (l : List ν) : Option ν := l.find? (fun s => ident s = i)

def updateRow (ident : ν → κ) (key : ν → K) (i : κ) (f : ν → ν) (l : List ν) : List ν :=
  if Ordered key (mapRow ident i f l) then mapRow ident i f l
  else
    match findRow ident i (mapRow ident i f l) with
    | some a => insertUpper key a (eraseRow ident i (mapRow ident i f l))
    | none => mapRow ident i f l

section

variable {key : ν → K} {ident : ν → κ} {f : ν → ν} {i : κ} {a b : ν} {l : List ν}

lemma insertUpper_perm (key : ν → K) (a : ν) (l : List ν) : (insertUpper key a l).Perm (a :: l) :=
  perm_orderedInsert _ a l

lemma mem_insertUpper : b ∈ insertUpper key a l ↔ b = a ∨ b ∈ l :=
  (insertUpper_perm key a l).mem_iff.trans mem_cons

lemma insertUpper_ordered (h : Ordered key l) : Ordered key (insertUpper key a l) := by
  induction l with
  | nil => exact pairwise_singleton _ a
  | cons b l ih =>
    obtain ⟨hb, hl⟩ := pairwise_cons.mp h
    rw [insertUpper, orderedInsert_cons]
    split_ifs with hlt
    · refine pairwise_cons.mpr ⟨?_, h⟩
      intro c hc
      rcases mem_cons.mp hc with rfl | hc
      · exact hlt.le
      · exact hlt.le.trans (hb c hc)
    · refine pairwise_cons.mpr ⟨?_, ih hl⟩
      intro c hc
      rcases mem_insertUpper.mp hc with rfl | hc
      · exact not_lt.mp hlt
      · exact hb c hc

lemma eraseRow_ordered (h : Ordered key l) : Ordered key (eraseRow ident i l) := h.filter _

lemma eraseRow_mapRow (hf : ∀ s, ident s = i → ident (f s) = i) :
    eraseRow ident i (mapRow ident i f l) = eraseRow ident i l := by
  induction l with
  | nil => rfl
  | cons s l ih =>
    by_cases hs : ident s = i
    · simpa [eraseRow, mapRow, hs, hf s hs] using ih
    · simpa [eraseRow, mapRow, hs] using ih

lemma findRow_some (h : findRow ident i l = some a) : a ∈ l ∧ ident a = i :=
  ⟨mem_of_find?_eq_some h, of_decide_eq_true (find?_some h :)⟩

lemma findRow_of_mem (hn : (l.map ident).Nodup) (h : a ∈ l) : findRow ident (ident a) l = some a := by
  induction l with
  | nil => cases h
  | cons b l ih =>
    obtain ⟨hb, hn⟩ := nodup_cons.mp hn
    rcases mem_cons.mp h with rfl | h
    · simp [findRow]
    · have hne : ident b ≠ ident a := fun he => hb (he ▸ mem_map_of_mem h)
      simpa [findRow, hne] using ih hn h

lemma findRow_eq_some_iff (hn : (l.map ident).Nodup) : findRow ident i l = some a ↔ a ∈ l ∧ ident a = i := by
  constructor
  · exact findRow_some
  · rintro ⟨h, rfl⟩
    exact findRow_of_mem hn h

lemma findRow_none : findRow ident i l = none ↔ i ∉ l.map ident := by
  simp [findRow]

lemma mapRow_idents (hf : ∀ s, ident s = i → ident (f s) = i) : (mapRow ident i f l).map ident = l.map ident := by
  rw [mapRow, map_map]
  apply map_congr_left
  intro s _
  by_cases hs : ident s = i
  · simp [hs, hf s hs]
  · simp [hs]

lemma eraseRow_perm (hn : (l.map ident).Nodup) (h : a ∈ l) : (a :: eraseRow ident (ident a) l).Perm l := by
  induction l with
  | nil => cases h
  | cons b l ih =>
    obtain ⟨hb, hn'⟩ := nodup_cons.mp hn
    rcases mem_cons.mp h with rfl | h
    · have hid : eraseRow ident (ident a) l = l :=
        filter_eq_self.mpr (fun s hs => decide_eq_true (fun he => hb (he ▸ mem_map_of_mem hs)))
      have hcons : eraseRow ident (ident a) (a :: l) = eraseRow ident (ident a) l := by simp [eraseRow]
      rw [hcons, hid]
    · have hne : ident b ≠ ident a := fun he => hb (he ▸ mem_map_of_mem h)
      have hcons : eraseRow ident (ident a) (b :: l) = b :: eraseRow ident (ident a) l := by simp [eraseRow, hne]
      rw [hcons]
      exact (List.Perm.swap b a _).trans ((ih hn' h).cons b)

lemma updateRow_perm (hf : ∀ s, ident s = i → ident (f s) = i) (hn : (l.map ident).Nodup) :
    (updateRow ident key i f l).Perm (mapRow ident i f l) := by
  rw [updateRow]
  split_ifs with ho
  · exact List.Perm.refl _
  · cases h : findRow ident i (mapRow ident i f l) with
    | none => exact List.Perm.refl _
    | some a =>
      obtain ⟨ha, rfl⟩ := findRow_some h
      rw [← mapRow_idents hf] at hn
      exact (insertUpper_perm key a _).trans (eraseRow_perm hn ha)

lemma updateRow_ordered (hf : ∀ s, ident s = i → ident (f s) = i) (h : Ordered key l) :
    Ordered key (updateRow ident key i f l) := by
  rw [updateRow]
  split_ifs with ho
  · exact ho
  · cases hr : findRow ident i (mapRow ident i f l) with
    | some a =>
      refine insertUpper_ordered ?_
      rw [eraseRow_mapRow hf]
      exact eraseRow_ordered h
    | none =>
      have hid : mapRow ident i f l = l := by
        refine (map_congr_left ?_).trans (map_id l)
        intro s hs
        rw [findRow_none, mapRow_idents hf] at hr
        have hne : ident s ≠ i := fun he => hr (he ▸ mem_map_of_mem hs)
        rw [if_neg hne, id]
      rw [hid]
      exact h

lemma Ordered.head_le (h : Ordered key (a :: l)) (hb : b ∈ a :: l) : key a ≤ key b := by
  rcases mem_cons.mp hb with rfl | hb
  · exact le_rfl
  · exact (pairwise_cons.mp h).1 b hb

lemma Ordered.least {rows : List ν} (h : Ordered key l) (hp : l.Perm rows) (ha : l.head? = some a) :
    a ∈ rows ∧ ∀ b ∈ rows, key a ≤ key b := by
  obtain ⟨l, rfl⟩ := head?_eq_some_iff.mp ha
  refine ⟨hp.mem_iff.mp mem_cons_self, ?_⟩
  intro b hb
  exact h.head_le (hp.mem_iff.mpr hb)

end

end XosChain.Lib
