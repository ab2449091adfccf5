import Mathlib.Algebra.BigOperators.Group.List.Basic
import Mathlib.Order.Basic
import Mathlib.Tactic

namespace XosChain.Lib

open List

section

variable {κ ν : Type} [LinearOrder κ]

def lookup (k : κ) : List (κ × ν) → Option ν
  | [] => none
  | e :: l => if e.1 = k then some e.2 else lookup k l

def insertEntry (k : κ) (v : ν) : List (κ × ν) → List (κ × ν)
  | [] => [(k, v)]
  | e :: l => if k < e.1 then (k, v) :: e :: l
    else if e.1 = k then (k, v) :: l else e :: insertEntry k v l

def eraseEntry (k : κ) : List (κ × ν) → List (κ × ν)
  | [] => []
  | e :: l => if e.1 = k then l else e :: eraseEntry k l

def Ascending (l : List (κ × ν)) : Prop := l.Pairwise (fun a b => a.1 < b.1)

instance (l : List (κ × ν)) : Decidable (Ascending l) :=
  inferInstanceAs (Decidable (l.Pairwise (fun a b => a.1 < b.1)))

variable {k : κ} {l : List (κ × ν)}

lemma mem_insertEntry {v : ν} {e : κ × ν} (h : e ∈ insertEntry k v l) :
    e = (k, v) ∨ e ∈ l := by
  induction l with
  | nil => exact .inl (by simpa [insertEntry] using h)
  | cons a l ih =>
    simp only [insertEntry] at h
    split_ifs at h with hlt heq
    · exact mem_cons.mp h
    · exact (mem_cons.mp h).imp_right (mem_cons_of_mem a)
    · rcases mem_cons.mp h with he | he
      · exact .inr (he ▸ mem_cons_self)
      · exact (ih he).imp_right (mem_cons_of_mem a)

lemma mem_eraseEntry {e : κ × ν} (h : e ∈ eraseEntry k l) : e ∈ l := by
  induction l with
  | nil => simp [eraseEntry] at h
  | cons a l ih =>
    simp only [eraseEntry] at h
    split_ifs at h with heq
    · exact mem_cons_of_mem a h
    · rcases mem_cons.mp h with he | he
      · exact he ▸ mem_cons_self
      · exact mem_cons_of_mem a (ih he)

lemma insertEntry_ascending (k : κ) (v : ν) (h : Ascending l) :
    Ascending (insertEntry k v l) := by
  induction l with
  | nil => simp [insertEntry, Ascending]
  | cons a l ih =>
    have ha := pairwise_cons.mp h
    simp only [insertEntry]
    split_ifs with hlt heq
    · refine pairwise_cons.mpr ⟨?_, h⟩
      intro b hb
      rcases mem_cons.mp hb with rfl | hb
      · exact hlt
      · exact hlt.trans (ha.1 b hb)
    · exact pairwise_cons.mpr ⟨fun b hb => heq ▸ ha.1 b hb, ha.2⟩
    · refine pairwise_cons.mpr ⟨?_, ih ha.2⟩
      intro b hb
      rcases mem_insertEntry hb with rfl | hb
      · exact lt_of_le_of_ne (not_lt.mp hlt) heq
      · exact ha.1 b hb

lemma eraseEntry_ascending (k : κ) (h : Ascending l) :
    Ascending (eraseEntry k l) := by
  induction l with
  | nil => simp [eraseEntry, Ascending]
  | cons a l ih =>
    have ha := pairwise_cons.mp h
    simp only [eraseEntry]
    split_ifs with heq
    · exact ha.2
    · exact pairwise_cons.mpr ⟨fun b hb => ha.1 b (mem_eraseEntry hb), ih ha.2⟩

lemma lookup_eq_none_of_lt (h : ∀ e ∈ l, k < e.1) : lookup k l = none := by
  induction l with
  | nil => rfl
  | cons a l ih =>
    have ha := h a mem_cons_self
    simp only [lookup, if_neg ha.ne']
    exact ih (fun e he => h e (mem_cons_of_mem a he))

lemma lookup_insertEntry (k j : κ) (v : ν) (h : Ascending l) :
    lookup j (insertEntry k v l) = if k = j then some v else lookup j l := by
  induction l with
  | nil => simp [insertEntry, lookup]
  | cons a l ih =>
    have ha := pairwise_cons.mp h
    by_cases hlt : k < a.1
    · simp [insertEntry, hlt, lookup]
    · by_cases heq : a.1 = k
      · by_cases hk : k = j <;> simp [insertEntry, heq, lookup, hk]
      · simp only [insertEntry, if_neg hlt, if_neg heq, lookup, ih ha.2]
        by_cases hk : k = j
        · simp [← hk, heq]
        · simp [hk]

lemma lookup_eraseEntry (k j : κ) (h : Ascending l) :
    lookup j (eraseEntry k l) = if k = j then none else lookup j l := by
  induction l with
  | nil => simp [eraseEntry, lookup]
  | cons a l ih =>
    have ha := pairwise_cons.mp h
    by_cases heq : a.1 = k
    · subst heq
      by_cases hk : a.1 = j
      · subst hk
        simpa [eraseEntry] using lookup_eq_none_of_lt ha.1
      · simp [eraseEntry, lookup, hk]
    · simp only [eraseEntry, if_neg heq, lookup, ih ha.2]
      by_cases hk : k = j
      · simp [← hk, heq]
      · simp [hk]

lemma eraseEntry_of_lt (h : ∀ e ∈ l, k < e.1) : eraseEntry k l = l := by
  induction l with
  | nil => rfl
  | cons a l ih =>
    have ha := h a mem_cons_self
    rw [eraseEntry, if_neg ha.ne', ih (fun e he => h e (mem_cons_of_mem a he))]

lemma insertEntry_perm (k : κ) (v : ν) (h : Ascending l) :
    (insertEntry k v l).Perm ((k, v) :: eraseEntry k l) := by
  induction l with
  | nil => rfl
  | cons a l ih =>
    have ha := pairwise_cons.mp h
    simp only [insertEntry, eraseEntry]
    split_ifs with hlt heq heq
    · exact absurd heq hlt.ne'
    · rw [eraseEntry_of_lt (fun e he => hlt.trans (ha.1 e he))]
    · rfl
    · exact ((ih ha.2).cons a).trans (List.Perm.swap _ _ _)

lemma lookup_eq_some_iff {v : ν} (h : Ascending l) :
    lookup k l = some v ↔ (k, v) ∈ l := by
  induction l with
  | nil => simp [lookup]
  | cons a l ih =>
    have ha := pairwise_cons.mp h
    by_cases heq : a.1 = k
    · have hn : (k, v) ∉ l := fun hm => (ha.1 _ hm).ne heq
      simp only [lookup, if_pos heq, mem_cons, hn, or_false, Option.some.injEq]
      exact ⟨fun hv => by rw [← heq, ← hv], fun hv => by rw [← hv]⟩
    · have hn : (k, v) ≠ a := fun he => heq (by rw [← he])
      simp only [lookup, if_neg heq, mem_cons, hn, false_or]
      exact ih ha.2

lemma entries_ext {l l' : List (κ × ν)} (h : Ascending l) (h' : Ascending l')
    (he : ∀ k, lookup k l = lookup k l') : l = l' := by
  refine List.Perm.eq_of_pairwise ?_ h h' ?_
  · intro a b _ _ hab hba
    exact absurd (hab.trans hba) (lt_irrefl _)
  · have hn : l.Nodup := h.imp (fun hab he => by simp [he] at hab)
    have hn' : l'.Nodup := h'.imp (fun hab he => by simp [he] at hab)
    rw [perm_ext_iff_of_nodup hn hn']
    rintro ⟨k, v⟩
    rw [← lookup_eq_some_iff h, ← lookup_eq_some_iff h', he]

end

structure FlatMap (κ ν : Type) [LinearOrder κ] where
  entries : List (κ × ν)
  ascending : Ascending entries
  deriving DecidableEq

namespace FlatMap

variable {κ ν : Type} [LinearOrder κ]

def empty : FlatMap κ ν := ⟨[], List.Pairwise.nil⟩

instance : Inhabited (FlatMap κ ν) := ⟨empty⟩

def find? (m : FlatMap κ ν) (k : κ) : Option ν := lookup k m.entries

def set (m : FlatMap κ ν) (k : κ) (v : ν) : FlatMap κ ν :=
  ⟨insertEntry k v m.entries, insertEntry_ascending k v m.ascending⟩

def erase (m : FlatMap κ ν) (k : κ) : FlatMap κ ν :=
  ⟨eraseEntry k m.entries, eraseEntry_ascending k m.ascending⟩

def size (m : FlatMap κ ν) : ℕ := m.entries.length

def keys (m : FlatMap κ ν) : List κ := m.entries.map Prod.fst

def values (m : FlatMap κ ν) : List ν := m.entries.map Prod.snd

def contains (m : FlatMap κ ν) (k : κ) : Bool := (m.find? k).isSome

@[simp] lemma find?_empty (k : κ) : (empty : FlatMap κ ν).find? k = none := rfl

section

variable (m : FlatMap κ ν)

include m

lemma find?_set (k j : κ) (v : ν) :
    (m.set k v).find? j = if k = j then some v else m.find? j :=
  lookup_insertEntry k j v m.ascending

lemma find?_erase (k j : κ) :
    (m.erase k).find? j = if k = j then none else m.find? j :=
  lookup_eraseEntry k j m.ascending

@[simp] lemma find?_set_self (k : κ) (v : ν) : (m.set k v).find? k = some v := by
  simp [find?_set]

lemma find?_set_of_ne {k j : κ} (v : ν) (h : k ≠ j) :
    (m.set k v).find? j = m.find? j := by
  simp [find?_set, h]

@[simp] lemma find?_erase_self (k : κ) : (m.erase k).find? k = none := by
  simp [find?_erase]

lemma find?_erase_of_ne {k j : κ} (h : k ≠ j) :
    (m.erase k).find? j = m.find? j := by
  simp [find?_erase, h]

end

section

variable {m : FlatMap κ ν} {k j : κ} {v w : ν} {P : κ → ν → Prop}

lemma find?_set_some (h : (m.set k v).find? j = some w) : k = j ∧ v = w ∨ k ≠ j ∧ m.find? j = some w := by
  rw [find?_set] at h
  split_ifs at h with hk
  · exact .inl ⟨hk, Option.some.inj h⟩
  · exact .inr ⟨hk, h⟩

lemma find?_erase_some (h : (m.erase k).find? j = some w) : k ≠ j ∧ m.find? j = some w := by
  rw [find?_erase] at h
  split_ifs at h with hk
  exact ⟨hk, h⟩

lemma forall_set (h : ∀ j w, m.find? j = some w → P j w) (hk : P k v) :
    ∀ j w, (m.set k v).find? j = some w → P j w := by
  intro j w hw
  obtain ⟨rfl, rfl⟩ | ⟨-, hw⟩ := find?_set_some hw
  · exact hk
  · exact h j w hw

lemma forall_erase (h : ∀ j w, m.find? j = some w → P j w) :
    ∀ j w, (m.erase k).find? j = some w → P j w :=
  fun j w hw => h j w (find?_erase_some hw).2

lemma exists_find?_set (h : ∃ w, m.find? j = some w) : ∃ w, (m.set k v).find? j = some w := by
  rw [find?_set]
  split_ifs
  · exact ⟨v, rfl⟩
  · exact h

end

lemma find?_eq_some_iff (m : FlatMap κ ν) (k : κ) (v : ν) : m.find? k = some v ↔ (k, v) ∈ m.entries :=
  lookup_eq_some_iff m.ascending

lemma ext_find? {m m' : FlatMap κ ν} (h : ∀ k, m.find? k = m'.find? k) : m = m' := by
  cases m with
  | mk l hl =>
    cases m' with
    | mk l' hl' =>
      congr
      exact entries_ext hl hl' h

section

variable (m : FlatMap κ ν)

include m

lemma contains_iff (k : κ) : m.contains k = true ↔ ∃ v, m.find? k = some v := by
  simp [contains, Option.isSome_iff_exists]

lemma mem_keys_iff (k : κ) : k ∈ m.keys ↔ ∃ v, m.find? k = some v := by
  simp only [keys, mem_map, find?_eq_some_iff]
  exact ⟨fun ⟨e, he, hk⟩ => ⟨e.2, by rw [← hk]; exact he⟩, fun ⟨v, hv⟩ => ⟨(k, v), hv, rfl⟩⟩

lemma mem_keys_set (k j : κ) (v : ν) : j ∈ (m.set k v).keys ↔ j = k ∨ j ∈ m.keys := by
  rw [mem_keys_iff, mem_keys_iff, find?_set]
  split_ifs with h
  · simp [h]
  · simp [Ne.symm h]

lemma mem_keys_erase (k j : κ) : j ∈ (m.erase k).keys ↔ j ≠ k ∧ j ∈ m.keys := by
  rw [mem_keys_iff, mem_keys_iff, find?_erase]
  split_ifs with h
  · simp [h]
  · simp [Ne.symm h]

lemma contains_set (k j : κ) (v : ν) :
    (m.set k v).contains j = true ↔ k = j ∨ m.contains j = true := by
  rw [contains, find?_set]
  split_ifs with h
  · simp [h]
  · simp [h, contains]

lemma contains_erase (k j : κ) :
    (m.erase k).contains j = true ↔ k ≠ j ∧ m.contains j = true := by
  rw [contains, find?_erase]
  split_ifs with h
  · simp [h]
  · simp [h, contains]

lemma keys_nodup : m.keys.Nodup :=
  pairwise_map.mpr (m.ascending.imp (fun h => h.ne))

end

lemma foldl_pointwise {σ β : Type} (obs : σ → κ → β) (f : σ → κ × ν → σ) (g : β → ν → β)
    (hself : ∀ s e, obs (f s e) e.1 = g (obs s e.1) e.2)
    (hother : ∀ s e j, j ≠ e.1 → obs (f s e) j = obs s j)
    (m : FlatMap κ ν) (s : σ) (j : κ) :
    obs (m.entries.foldl f s) j = (m.find? j).elim (obs s j) (g (obs s j)) := by
  obtain ⟨l, hl⟩ := m
  simp only [find?]
  induction l generalizing s with
  | nil => rfl
  | cons e l ih =>
    have he := pairwise_cons.mp hl
    rw [foldl_cons, ih (f s e) he.2]
    by_cases hj : e.1 = j
    · subst hj
      simp [lookup, lookup_eq_none_of_lt he.1, hself]
    · simp [lookup, hj, hother s e j (Ne.symm hj)]

lemma entries_set_perm (m : FlatMap κ ν) (k : κ) (v : ν) :
    (m.set k v).entries.Perm ((k, v) :: (m.erase k).entries) :=
  insertEntry_perm k v m.ascending

lemma size_set (m : FlatMap κ ν) (k : κ) (v : ν) : (m.set k v).size = (m.erase k).size + 1 :=
  (m.entries_set_perm k v).length_eq

variable {m : FlatMap κ ν} {k : κ} {v : ν}

lemma set_eq_self (h : m.find? k = some v) : m.set k v = m := by
  apply ext_find?
  intro j
  rw [find?_set]
  split_ifs with hk
  · rw [← hk, h]
  · rfl

lemma size_erase (h : m.find? k = some v) : (m.erase k).size + 1 = m.size := by
  rw [← size_set m k v, set_eq_self h]

lemma erase_of_none (h : m.find? k = none) : m.erase k = m := by
  apply ext_find?
  intro j
  rw [find?_erase]
  split_ifs with hk
  · rw [← hk, h]
  · rfl

lemma countP_keys_set (m : FlatMap κ ν) (k : κ) (v : ν) (q : κ → Bool) :
    (m.set k v).keys.countP q = (m.erase k).keys.countP q + (q k).toNat := by
  rw [keys, ((m.entries_set_perm k v).map Prod.fst).countP_eq q, map_cons, countP_cons]
  cases q k <;> rfl

lemma countP_keys_erase (h : m.find? k = some v) (q : κ → Bool) :
    (m.erase k).keys.countP q + (q k).toNat = m.keys.countP q := by
  rw [← countP_keys_set m k v, set_eq_self h]

lemma countP_values_set (m : FlatMap κ ν) (k : κ) (v : ν) (q : ν → Bool) :
    (m.set k v).values.countP q = (m.erase k).values.countP q + (q v).toNat := by
  rw [values, ((m.entries_set_perm k v).map Prod.snd).countP_eq q, map_cons, countP_cons]
  cases q v <;> rfl

section

variable {M : Type} [AddCommMonoid M]

def sum (m : FlatMap κ ν) (f : κ → ν → M) : M := (m.entries.map (fun e => f e.1 e.2)).sum

@[simp] lemma sum_empty (f : κ → ν → M) : (empty : FlatMap κ ν).sum f = 0 := rfl

lemma sum_set_eq (m : FlatMap κ ν) (k : κ) (v : ν) (f : κ → ν → M) :
    (m.set k v).sum f = f k v + (m.erase k).sum f := by
  rw [sum, ((m.entries_set_perm k v).map _).sum_eq, map_cons, sum_cons, sum]

lemma sum_erase (m : FlatMap κ ν) (k : κ) (f : κ → ν → M) :
    (m.erase k).sum f + (m.find? k).elim 0 (f k) = m.sum f := by
  obtain ⟨l, hl⟩ := m
  simp only [erase, sum, find?]
  induction l with
  | nil => simp [eraseEntry, lookup]
  | cons a l ih =>
    have ha := pairwise_cons.mp hl
    by_cases heq : a.1 = k
    · subst heq
      simp [eraseEntry, lookup, add_comm]
    · simp only [eraseEntry, if_neg heq, lookup, map_cons, sum_cons]
      rw [add_assoc, ih ha.2]

lemma sum_set (m : FlatMap κ ν) (k : κ) (v : ν) (f : κ → ν → M) :
    (m.set k v).sum f + (m.find? k).elim 0 (f k) = m.sum f + f k v := by
  rw [sum_set_eq, add_assoc, sum_erase, add_comm]

end

section

variable {G : Type} [AddCommGroup G]

lemma sum_sub_erase (m : FlatMap κ ν) (k : κ) (f : κ → ν → G) :
    m.sum f - (m.erase k).sum f = (m.find? k).elim 0 (f k) := by
  rw [← m.sum_erase k f, add_sub_cancel_left]

lemma sum_sub_set (m : FlatMap κ ν) (k : κ) (v : ν) (f : κ → ν → G) :
    m.sum f - (m.set k v).sum f = (m.find? k).elim 0 (f k) - f k v := by
  rw [sub_eq_sub_iff_add_eq_add, ← m.sum_set k v f, add_comm]

lemma sum_eq_of_agree {m m' : FlatMap κ ν} {k : κ} (h : ∀ j, j ≠ k → m'.find? j = m.find? j) (f : κ → ν → G) :
    m'.sum f = m.sum f + ((m'.find? k).elim 0 (f k) - (m.find? k).elim 0 (f k)) := by
  have he : m'.erase k = m.erase k := by
    apply ext_find?
    intro j
    rw [find?_erase, find?_erase]
    split_ifs with hj
    · rfl
    · exact h j (Ne.symm hj)
  rw [← m'.sum_erase k f, ← m.sum_erase k f, he]
  abel

end

end FlatMap

end XosChain.Lib
