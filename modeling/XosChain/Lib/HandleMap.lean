import Mathlib.Data.List.MinMax
import XosChain.Lib.FlatMap

namespace XosChain.Lib

open FlatMap List Option

namespace FlatMap

variable {κ ν μ O : Type} [LinearOrder κ] [LinearOrder O]

def firstBy (m : FlatMap κ ν) (ord : κ → ν → O) (p : κ → ν → Prop) [∀ k v, Decidable (p k v)] : Option (κ × ν) :=
  (m.entries.filter fun e => p e.1 e.2).argmin fun e => ord e.1 e.2

def lastBy (m : FlatMap κ ν) (ord : κ → ν → O) (p : κ → ν → Prop) [∀ k v, Decidable (p k v)] : Option (κ × ν) :=
  m.firstBy (fun k v => OrderDual.toDual (ord k v)) p

section

variable {m : FlatMap κ ν} {ord : κ → ν → O} {p : κ → ν → Prop} [∀ k v, Decidable (p k v)] {k : κ} {v : ν}

lemma mem_filter_entries {e : κ × ν} : e ∈ m.entries.filter (fun e => p e.1 e.2) ↔ m.find? e.1 = some e.2 ∧ p e.1 e.2 := by
  rw [mem_filter, find?_eq_some_iff, decide_eq_true_eq]

lemma firstBy_eq_none_iff : m.firstBy ord p = none ↔ ∀ k v, m.find? k = some v → ¬ p k v := by
  rw [firstBy, argmin_eq_none, eq_nil_iff_forall_not_mem]
  constructor
  · intro h k v hk hp
    exact h (k, v) (mem_filter_entries.mpr ⟨hk, hp⟩)
  · intro h e he
    obtain ⟨hk, hp⟩ := mem_filter_entries.mp he
    exact h e.1 e.2 hk hp

lemma firstBy_eq_some_iff (hord : ∀ k v k' v', ord k v = ord k' v' → k = k') :
    m.firstBy ord p = some (k, v) ↔
      m.find? k = some v ∧ p k v ∧ ∀ k' v', m.find? k' = some v' → p k' v' → ord k v ≤ ord k' v' := by
  constructor
  · intro h
    obtain ⟨hk, hp⟩ := mem_filter_entries.mp (argmin_mem h)
    refine ⟨hk, hp, fun k' v' hk' hp' => ?_⟩
    exact le_of_mem_argmin (f := fun e => ord e.1 e.2) (mem_filter_entries (e := (k', v')).mpr ⟨hk', hp'⟩) h
  · rintro ⟨hk, hp, hmin⟩
    cases hfirst : m.firstBy ord p with
    | none => exact absurd hp (firstBy_eq_none_iff.mp hfirst k v hk)
    | some e =>
      obtain ⟨hk', hp'⟩ := mem_filter_entries.mp (argmin_mem hfirst)
      have hle := le_of_mem_argmin (f := fun e => ord e.1 e.2) (mem_filter_entries (e := (k, v)).mpr ⟨hk, hp⟩) hfirst
      have hkey := hord _ _ _ _ (le_antisymm hle (hmin e.1 e.2 hk' hp'))
      rw [hkey, hk] at hk'
      exact congrArg some (Prod.ext hkey (some.inj hk').symm)

end

end FlatMap

structure HandleMap (κ ν : Type) [LinearOrder κ] where
  rows : FlatMap κ (ℕ × ν)
  fresh : ℕ
  below : ∀ k h v, rows.find? k = some (h, v) → h < fresh
  distinct : ∀ k k' h v v', rows.find? k = some (h, v) → rows.find? k' = some (h, v') → k = k'

namespace HandleMap

variable {κ ν O : Type} [LinearOrder κ] [LinearOrder O]

def empty : HandleMap κ ν where
  rows := FlatMap.empty
  fresh := 0
  below := nofun
  distinct := nofun

def find (m : HandleMap κ ν) (k : κ) : Option ν := (m.rows.find? k).map Prod.snd

def handle (m : HandleMap κ ν) (k : κ) : Option ℕ := (m.rows.find? k).map Prod.fst

def atHandle (m : HandleMap κ ν) (h : ℕ) : Option (κ × ν) :=
  (m.rows.entries.find? fun e => e.2.1 = h).map fun e => (e.1, e.2.2)

def store (m : HandleMap κ ν) (k : κ) (v : ν) : HandleMap κ ν where
  rows := m.rows.set k (m.fresh, v)
  fresh := m.fresh + 1
  below := by
    intro j h w hj
    by_cases hk : k = j
    · subst hk
      obtain ⟨rfl, -⟩ := Prod.mk.inj (some.inj ((m.rows.find?_set_self k _).symm.trans hj))
      exact Nat.lt_succ_self _
    · rw [m.rows.find?_set_of_ne _ hk] at hj
      exact (m.below j h w hj).trans (Nat.lt_succ_self _)
  distinct := by
    intro j j' h w w' hj hj'
    rw [find?_set] at hj hj'
    split_ifs at hj hj' with hk hk'
    · exact hk.symm.trans hk'
    · cases hj
      exact absurd (m.below j' _ w' hj') (lt_irrefl _)
    · cases hj'
      exact absurd (m.below j _ w hj) (lt_irrefl _)
    · exact m.distinct j j' h w w' hj hj'

def update (m : HandleMap κ ν) (k : κ) (v : ν) : HandleMap κ ν :=
  match hk : m.rows.find? k with
  | none => m
  | some r => {
      rows := m.rows.set k (r.1, v)
      fresh := m.fresh
      below := by
        intro j h w hj
        rw [find?_set] at hj
        split_ifs at hj with he
        · cases hj
          exact m.below k r.1 r.2 hk
        · exact m.below j h w hj
      distinct := by
        intro j j' h w w' hj hj'
        rw [find?_set] at hj hj'
        split_ifs at hj hj' with he he'
        · exact he.symm.trans he'
        · cases hj
          exact he.symm.trans (m.distinct k j' _ r.2 w' hk hj')
        · cases hj'
          exact (m.distinct j k _ w r.2 hj hk).trans ‹k = j'›
        · exact m.distinct j j' h w w' hj hj' }

def remove (m : HandleMap κ ν) (k : κ) : HandleMap κ ν where
  rows := m.rows.erase k
  fresh := m.fresh
  below := by
    intro j h w hj
    rw [find?_erase] at hj
    split_ifs at hj
    exact m.below j h w hj
  distinct := by
    intro j j' h w w' hj hj'
    rw [find?_erase] at hj hj'
    split_ifs at hj hj'
    exact m.distinct j j' h w w' hj hj'

def updateAt (m : HandleMap κ ν) (h : ℕ) (v : ν) : Option (HandleMap κ ν) :=
  (m.atHandle h).map fun r => m.update r.1 v

def removeAt (m : HandleMap κ ν) (h : ℕ) : Option (HandleMap κ ν) := (m.atHandle h).map fun r => m.remove r.1

def first (m : HandleMap κ ν) (ord : κ → ν → O) (p : κ → ν → Prop) [∀ k v, Decidable (p k v)] : Option (κ × ℕ) :=
  (m.rows.firstBy (fun k r => ord k r.2) fun k r => p k r.2).map fun e => (e.1, e.2.1)

def last (m : HandleMap κ ν) (ord : κ → ν → O) (p : κ → ν → Prop) [∀ k v, Decidable (p k v)] : Option (κ × ℕ) :=
  m.first (fun k v => OrderDual.toDual (ord k v)) p

section

variable (m : HandleMap κ ν) {k j : κ} {h : ℕ} {v w : ν}

lemma atHandle_eq_some_iff : m.atHandle h = some (k, v) ↔ m.rows.find? k = some (h, v) := by
  rw [atHandle, map_eq_some_iff]
  constructor
  · rintro ⟨e, he, heq⟩
    cases heq
    have hh : e.2.1 = h := of_decide_eq_true (find?_some he :)
    rw [find?_eq_some_iff, ← hh]
    exact mem_of_find?_eq_some he
  · intro hk
    have hmem := (m.rows.find?_eq_some_iff k (h, v)).mp hk
    cases hfind : m.rows.entries.find? fun e => e.2.1 = h with
    | none => exact absurd (find?_eq_none.mp hfind _ hmem) (by simp)
    | some e =>
      have hh : e.2.1 = h := of_decide_eq_true (find?_some hfind :)
      have he := (m.rows.find?_eq_some_iff e.1 e.2).mpr (mem_of_find?_eq_some hfind)
      have hkey : e.1 = k := m.distinct e.1 k h e.2.2 v (by rw [he, ← hh]) hk
      rw [hkey, hk] at he
      obtain ⟨-, hv⟩ := Prod.mk.inj (some.inj he)
      exact ⟨e, rfl, Prod.ext hkey hv.symm⟩

lemma find_store : (m.store k v).find j = if k = j then some v else m.find j := by
  rw [find, store, find?_set]
  split_ifs <;> rfl

lemma find_remove : (m.remove k).find j = if k = j then none else m.find j := by
  rw [find, remove, find?_erase]
  split_ifs <;> rfl

lemma update_rows (hk : m.rows.find? k = some (h, w)) : (m.update k v).rows = m.rows.set k (h, v) := by
  unfold update
  split
  · next hnone => rw [hnone] at hk; cases hk
  · next r hr =>
    rw [hk] at hr
    cases hr
    rfl

lemma find_update (hk : m.find k = some w) : (m.update k v).find j = if k = j then some v else m.find j := by
  obtain ⟨r, hr, -⟩ := map_eq_some_iff.mp hk
  rw [find, m.update_rows hr, find?_set]
  split_ifs <;> rfl

lemma handle_update (hk : m.find k = some w) : (m.update k v).handle j = m.handle j := by
  obtain ⟨r, hr, -⟩ := map_eq_some_iff.mp hk
  rw [handle, m.update_rows hr, find?_set]
  split_ifs with he
  · subst he
    rw [handle, hr]
    rfl
  · rfl

lemma handle_store_self : (m.store k v).handle k = some m.fresh := by
  rw [handle, store, find?_set_self]
  rfl

lemma handle_store_of_ne (hne : k ≠ j) : (m.store k v).handle j = m.handle j := by
  rw [handle, store, find?_set_of_ne _ _ hne]
  rfl

lemma handle_remove_of_ne (hne : k ≠ j) : (m.remove k).handle j = m.handle j := by
  rw [handle, remove, find?_erase_of_ne _ hne]
  rfl

lemma exists_row (hk : m.find k = some v) : ∃ h, m.rows.find? k = some (h, v) := by
  obtain ⟨⟨h, w⟩, hr, rfl⟩ := map_eq_some_iff.mp hk
  exact ⟨h, hr⟩

lemma exists_handle (hk : m.find k = some v) : ∃ h, m.handle k = some h ∧ m.atHandle h = some (k, v) := by
  obtain ⟨h, hr⟩ := m.exists_row hk
  exact ⟨h, by rw [handle, hr]; rfl, m.atHandle_eq_some_iff.mpr hr⟩

lemma atHandle_of_handle (hh : m.handle k = some h) (hk : m.find k = some v) : m.atHandle h = some (k, v) := by
  obtain ⟨h', hh', hat⟩ := m.exists_handle hk
  obtain rfl := some.inj (hh.symm.trans hh')
  exact hat

lemma handle_injective (hk : m.handle k = some h) (hj : m.handle j = some h) : k = j := by
  obtain ⟨⟨_, v⟩, hr, rfl⟩ := map_eq_some_iff.mp hk
  obtain ⟨⟨_, w⟩, hr', rfl⟩ := map_eq_some_iff.mp hj
  exact m.distinct k j _ v w hr hr'

lemma find_of_handle (hk : m.handle k = some h) : ∃ v, m.find k = some v := by
  obtain ⟨⟨_, v⟩, hr, rfl⟩ := map_eq_some_iff.mp hk
  exact ⟨v, by rw [find, hr]; rfl⟩

lemma fresh_ne_of_handle (hk : m.handle k = some h) : h ≠ m.fresh := by
  obtain ⟨⟨_, v⟩, hr, rfl⟩ := map_eq_some_iff.mp hk
  exact (m.below k _ v hr).ne

section

variable {m} {μ : Type} {A : FlatMap κ μ} {g : μ → ν} {ord : κ → ν → O} {p : κ → ν → Prop}
  [∀ k v, Decidable (p k v)] (hview : ∀ k, m.find k = (A.find? k).map g)
include hview

lemma exists_of_row {r : ℕ × ν} (hr : m.rows.find? k = some r) : ∃ x, A.find? k = some x ∧ g x = r.2 := by
  refine map_eq_some_iff.mp ?_
  rw [← hview, find, hr]
  rfl

lemma first_isSome_iff : (m.first ord p).isSome = true ↔ ∃ k x, A.find? k = some x ∧ p k (g x) := by
  rw [first, isSome_map, isSome_iff_ne_none, ne_eq, FlatMap.firstBy_eq_none_iff]
  push Not
  constructor
  · rintro ⟨k, r, hr, hp⟩
    obtain ⟨x, hx, hg⟩ := exists_of_row hview hr
    exact ⟨k, x, hx, hg ▸ hp⟩
  · rintro ⟨k, x, hx, hp⟩
    obtain ⟨h, hr⟩ := m.exists_row (k := k) (v := g x) (by rw [hview, hx]; rfl)
    exact ⟨k, _, hr, hp⟩

lemma first_eq (hord : ∀ k v k' v', ord k v = ord k' v' → k = k') :
    m.first ord p = (A.firstBy (fun k x => ord k (g x)) fun k x => p k (g x)).bind fun e =>
      (m.handle e.1).map fun h => (e.1, h) := by
  cases hfirst : A.firstBy (fun k x => ord k (g x)) fun k x => p k (g x) with
  | none =>
    rw [first, FlatMap.firstBy_eq_none_iff.mpr]
    · rfl
    · intro k r hr hp
      obtain ⟨x, hx, hg⟩ := exists_of_row hview hr
      exact FlatMap.firstBy_eq_none_iff.mp hfirst k x hx (hg ▸ hp)
  | some e =>
    obtain ⟨k, x⟩ := e
    have hord' : ∀ k (x : μ) k' x', ord k (g x) = ord k' (g x') → k = k' := fun _ _ _ _ he => hord _ _ _ _ he
    obtain ⟨hx, hp, hmin⟩ := (FlatMap.firstBy_eq_some_iff hord').mp hfirst
    obtain ⟨h, hr⟩ := m.exists_row (k := k) (v := g x) (by rw [hview, hx]; rfl)
    have hrows : m.rows.firstBy (fun k r => ord k r.2) (fun k r => p k r.2) = some (k, (h, g x)) := by
      refine (FlatMap.firstBy_eq_some_iff fun _ _ _ _ he => hord _ _ _ _ he).mpr ⟨hr, hp, fun k' r' hr' hp' => ?_⟩
      obtain ⟨x', hx', hg⟩ := exists_of_row hview hr'
      rw [← hg]
      exact hmin k' x' hx' (hg ▸ hp')
    rw [first, hrows, map_some, bind_some, handle, hr]
    rfl

end

end

end HandleMap

end XosChain.Lib
