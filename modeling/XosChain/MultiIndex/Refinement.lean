import XosChain.MultiIndex.Table

namespace XosChain.MultiIndex

open Lib Raw FlatMap List HandleMap Item Function

variable {T : Type} {S : Schema T}

section

structure Refines (A : FlatMap Key T) (s : State S) : Prop where
  keyed : ∀ k x, A.find? k = some x → S.primaryKey x = k
  rows : ∀ k, s.primary.find k = (A.find? k).map S.pack
  entries : ∀ i k, (s.secondary i).find k = (A.find? k).map (S.extract i)
  cached : ∀ it ∈ s.items, A.find? (S.primaryKey it.obj) = some it.obj
  handles : ∀ it ∈ s.items, s.primary.handle (S.primaryKey it.obj) = some it.primaryItr
  itrs : ∀ it ∈ s.items, ∀ i h, it.iters i = some h → (s.secondary i).handle (S.primaryKey it.obj) = some h
  once : (s.items.map primaryItr).Nodup
  next : s.nextPrimaryKey = unsetNextPrimaryKey ∨ s.nextPrimaryKey = noAvailablePrimaryKey ∨
    s.nextPrimaryKey < noAvailablePrimaryKey ∧ ∀ k x, A.find? k = some x → k.val < s.nextPrimaryKey

def Survives (env : Env) (S : Schema T) (A : FlatMap Key T) : Prop :=
  ∀ k x, A.find? k = some x → maxStackBufferSize < (S.pack x).length → S.unpack (env.reread (S.pack x)) = some x

structure Kept (A : FlatMap Key T) (s s' : State S) : Prop where
  refines : Refines A s'
  primary : s'.primary = s.primary
  secondary : s'.secondary = s.secondary
  next : s'.nextPrimaryKey = s.nextPrimaryKey

def State.located (s : State S) (e : Option (Key × T)) : Option (ℕ × T) :=
  e.bind fun e => (s.primary.handle e.1).map fun h => (h, e.2)

end

section

variable {env : Env} {A : FlatMap Key T} {s s' : State S} {k : Key} {x : T} {h : ℕ} {it : Item S}

lemma Kept.refl (hs : Refines A s) : Kept A s s := ⟨hs, rfl, rfl, rfl⟩

lemma Refines.exists_handle (hs : Refines A s) (hk : A.find? k = some x) :
    ∃ h, s.primary.handle k = some h ∧ s.primary.atHandle h = some (k, S.pack x) := by
  refine s.primary.exists_handle ?_
  rw [hs.rows, hk]
  rfl

lemma located_some (hh : s.primary.handle k = some h) : s.located (some (k, x)) = some (h, x) := by
  simp [State.located, hh]

lemma Refines.item_unique {c : Item S} (hs : Refines A s) (hit : it ∈ s.items) (hc : c ∈ s.items)
    (hkey : S.primaryKey it.obj = S.primaryKey c.obj) : it = c := by
  have hh := hs.handles it hit
  rw [hkey, hs.handles c hc] at hh
  exact inj_on_of_nodup_map hs.once hit hc (Option.some.inj hh).symm

lemma Refines.item_of_handle (hs : Refines A s) (hit : it ∈ s.items) (hh : s.primary.handle k = some it.primaryItr) :
    S.primaryKey it.obj = k :=
  s.primary.handle_injective (hs.handles it hit) hh

lemma readObject_eq (hsurv : Survives env S A) (hk : A.find? k = some x) :
    readObject (S := S) env (S.pack x) = .ok x := by
  rw [readObject]
  split_ifs with hsize
  · rw [hsurv k x hk hsize]
    rfl
  · rw [S.unpack_pack]
    rfl

lemma Refines.cons (hs : Refines A s) (hk : A.find? k = some x) (hh : s.primary.handle k = some h)
    (hnew : ∀ it ∈ s.items, it.primaryItr ≠ h) :
    Refines A { s with items := { obj := x, primaryItr := h } :: s.items } where
  keyed := hs.keyed
  rows := hs.rows
  entries := hs.entries
  cached := by
    refine forall_mem_cons.mpr ⟨?_, hs.cached⟩
    rw [hs.keyed k x hk]
    exact hk
  handles := by
    refine forall_mem_cons.mpr ⟨?_, hs.handles⟩
    rw [hs.keyed k x hk]
    exact hh
  itrs := forall_mem_cons.mpr ⟨nofun, hs.itrs⟩
  once := by
    refine nodup_cons.mpr ⟨fun hmem => ?_, hs.once⟩
    obtain ⟨it, hit, heq⟩ := mem_map.mp hmem
    exact hnew it hit heq
  next := hs.next

section

variable (hs : Refines A s) (hsurv : Survives env S A)

include hs hsurv

lemma load_refines (hk : A.find? k = some x) (hh : s.primary.handle k = some h) :
    ∃ it s', loadObjectByPrimaryIterator env s h = .ok (it, s') ∧
      it.view = (h, x) ∧ it ∈ s'.items ∧ Kept A s s' := by
  rw [loadObjectByPrimaryIterator]
  cases hfind : s.items.find? fun it => it.primaryItr = h with
  | some it =>
    have hmem := mem_of_find?_eq_some hfind
    have hitr : it.primaryItr = h := of_decide_eq_true (find?_some hfind :)
    have hkey := hs.item_of_handle hmem (hitr ▸ hh)
    have hobj := hs.cached it hmem
    rw [hkey, hk] at hobj
    exact ⟨it, s, rfl, Prod.ext hitr (Option.some.inj hobj).symm, hmem, .refl hs⟩
  | none =>
    have hnew : ∀ it ∈ s.items, it.primaryItr ≠ h := by
      intro it hit heq
      have hnone := find?_eq_none.mp hfind it hit
      simp [heq] at hnone
    have hat := s.primary.atHandle_of_handle hh (v := S.pack x) (by rw [hs.rows, hk]; rfl)
    have hget : dbGet s.primary h = .ok (S.pack x) := by
      rw [dbGet, hat]
      rfl
    refine ⟨_, _, ?_, rfl, mem_cons_self, hs.cons hk hh hnew, rfl, rfl, rfl⟩
    rw [hget]
    change (readObject (S := S) env (S.pack x) >>= _) = _
    rw [readObject_eq hsurv hk]
    rfl

lemma arrive_refines {e : Option (Key × T)} (he : ∀ k x, e = some (k, x) → A.find? k = some x) :
    ∃ r s', arrive env s (e.bind fun e => (s.primary.handle e.1).map fun h => (e.1, h)) = .ok (r, s') ∧
      r.map view = s.located e ∧ (∀ it, r = some it → it ∈ s'.items) ∧ Kept A s s' := by
  cases e with
  | none => exact ⟨none, s, rfl, rfl, nofun, .refl hs⟩
  | some e =>
    obtain ⟨k, x⟩ := e
    have hk := he k x rfl
    obtain ⟨h, hh, -⟩ := hs.exists_handle hk
    obtain ⟨it, s', hload, hview, hmem, hkept⟩ := load_refines hs hsurv hk hh
    refine ⟨some it, s', ?_, ?_, ?_, hkept⟩
    · rw [Option.bind_some, hh]
      change (loadObjectByPrimaryIterator env s h >>= _) = _
      rw [hload]
      rfl
    · rw [located_some hh, Option.map_some, hview]
    · rintro c hc
      cases hc
      exact hmem

lemma find_refines (k : Key) :
    ∃ r s', find env s k = .ok (r, s') ∧ r.map view = s.located ((A.find? k).map fun x => (k, x)) ∧
      (∀ it, r = some it → it ∈ s'.items) ∧ Kept A s s' := by
  rw [find]
  cases hfind : s.items.find? fun it => S.primaryKey it.obj = k with
  | some it =>
    have hmem := mem_of_find?_eq_some hfind
    have hkey : S.primaryKey it.obj = k := of_decide_eq_true (find?_some hfind :)
    have hobj := hs.cached it hmem
    have hh := hs.handles it hmem
    rw [hkey] at hobj hh
    refine ⟨some it, s, rfl, ?_, fun c hc => Option.some.inj hc ▸ hmem, .refl hs⟩
    rw [hobj]
    exact (located_some hh).symm
  | none =>
    have he : ∀ j x, (A.find? k).map (fun x => (k, x)) = some (j, x) → A.find? j = some x := by
      intro j x hx
      obtain ⟨y, hy, heq⟩ := Option.map_eq_some_iff.mp hx
      cases heq
      exact hy
    have hsearch : (s.primary.handle k).map (fun h => (k, h)) =
        ((A.find? k).map fun x => (k, x)).bind fun e => (s.primary.handle e.1).map fun h => (e.1, h) := by
      cases hk : A.find? k with
      | some x => rfl
      | none =>
        have hnone : s.primary.handle k = none := by
          by_contra hsome
          obtain ⟨h, hh⟩ := Option.ne_none_iff_exists'.mp hsome
          obtain ⟨v, hv⟩ := s.primary.find_of_handle hh
          rw [hs.rows, hk] at hv
          cases hv
        rw [hnone]
        rfl
    rw [hsearch]
    exact arrive_refines hs hsurv he

end

lemma byKey_injective {ν : Type} (k : Key) (v : ν) (k' : Key) (v' : ν) (h : byKey k v = byKey k' v') : k = k' := h

lemma bySecondary_injective (i : Fin S.count) (k : Key) (v : S.Secondary i) (k' : Key) (v' : S.Secondary i)
    (h : bySecondary i k v = bySecondary i k' v') : k = k' :=
  (Prod.mk.inj (toLex.injective h)).2

lemma search_refines {O : Type} [LinearOrder O] (ord : Key → O) (p : Key → Prop) [DecidablePred p]
    (hord : ∀ k k', ord k = ord k' → k = k') (hs : Refines A s) (hsurv : Survives env S A) :
    ∃ r s', arrive env s (s.primary.first (fun k _ => ord k) fun k _ => p k) = .ok (r, s') ∧
      r.map view = s.located (A.firstBy (fun k _ => ord k) fun k _ => p k) ∧
      (∀ it, r = some it → it ∈ s'.items) ∧ Kept A s s' := by
  rw [first_eq hs.rows fun _ _ _ _ he => hord _ _ he]
  exact arrive_refines hs hsurv fun k x he =>
    ((FlatMap.firstBy_eq_some_iff fun _ _ _ _ he => hord _ _ he).mp he).1

end

section

variable {env : Env} {A : FlatMap Key T} {s s' : State S} {k : Key} {x : T} {h : ℕ} {it : Item S} {i : Fin S.count}

lemma mem_setItr {c : Item S} {itr : Option ℕ} (hc : c ∈ (s.setItr i h itr).items) : ∃ it ∈ s.items,
    c.view = it.view ∧
      (c = it ∨ it.primaryItr = h ∧ c = { it with iters := update it.iters i itr }) := by
  obtain ⟨it, hit, rfl⟩ := mem_map.mp hc
  refine ⟨it, hit, ?_, ?_⟩
  · split_ifs <;> rfl
  · split_ifs with hh
    · exact .inr ⟨hh, rfl⟩
    · exact .inl rfl

lemma Refines.setItr {itr : Option ℕ} (hs : Refines A s)
    (hitr : ∀ it ∈ s.items, it.primaryItr = h → ∀ j, itr = some j →
      (s.secondary i).handle (S.primaryKey it.obj) = some j) : Refines A (s.setItr i h itr) where
  keyed := hs.keyed
  rows := hs.rows
  entries := hs.entries
  cached := by
    intro c hc
    obtain ⟨it, hit, hview, -⟩ := mem_setItr hc
    rw [(Prod.mk.inj hview).2]
    exact hs.cached it hit
  handles := by
    intro c hc
    obtain ⟨it, hit, hview, -⟩ := mem_setItr hc
    rw [(Prod.mk.inj hview).1, (Prod.mk.inj hview).2]
    exact hs.handles it hit
  itrs := by
    intro c hc j n hn
    obtain ⟨it, hit, -, rfl | ⟨hh, rfl⟩⟩ := mem_setItr hc
    · exact hs.itrs c hit j n hn
    · dsimp only at hn
      by_cases hj : j = i
      · subst hj
        rw [update_self] at hn
        exact hitr it hit hh n hn
      · rw [update_of_ne hj] at hn
        exact hs.itrs it hit j n hn
  once := by
    have hsame : (s.setItr i h itr).items.map primaryItr = s.items.map primaryItr := by
      rw [State.setItr, map_map]
      refine map_congr_left fun c _ => ?_
      rw [comp_apply]
      split_ifs <;> rfl
    rw [hsame]
    exact hs.once
  next := hs.next

lemma idxArrive_refines (hs : Refines A s) (hsurv : Survives env S A) {e : Option (Key × T)}
    (he : ∀ k x, e = some (k, x) → A.find? k = some x) :
    ∃ r s', idxArrive env s i (e.bind fun e => ((s.secondary i).handle e.1).map fun h => (e.1, h)) = .ok (r, s') ∧
      r.map view = s.located e ∧ Kept A s s' := by
  cases e with
  | none => exact ⟨none, s, rfl, rfl, .refl hs⟩
  | some e =>
    obtain ⟨k, x⟩ := e
    have hk := he k x rfl
    obtain ⟨n, hn, -⟩ := (s.secondary i).exists_handle (k := k) (v := S.extract i x) (by rw [hs.entries, hk]; rfl)
    obtain ⟨h, hh, -⟩ := hs.exists_handle hk
    obtain ⟨r, s', hfind, hview, hmem, hkept⟩ := find_refines hs hsurv k
    rw [hk, Option.map_some, located_some hh] at hview
    obtain ⟨it, rfl, hit⟩ := Option.map_eq_some_iff.mp hview
    obtain ⟨hitr, hobj⟩ := Prod.mk.inj hit
    refine ⟨some { it with iters := update it.iters i (some n) }, s'.setItr i it.primaryItr (some n), ?_, ?_,
      hkept.refines.setItr ?_, hkept.primary, hkept.secondary, hkept.next⟩
    · rw [Option.bind_some, hn]
      change (find env s k >>= _) = _
      rw [hfind]
      rfl
    · rw [located_some hh]
      exact congrArg some hit
    · intro c hc hch j hj
      cases hj
      have hck := hkept.refines.item_of_handle (k := k) hc (by rw [hkept.primary, hh, hch, hitr])
      rw [hkept.secondary, hck]
      exact hn

lemma idxSearch_refines {O : Type} [LinearOrder O] (ord : Key → S.Secondary i → O) (p : Key → S.Secondary i → Prop)
    [∀ k v, Decidable (p k v)] (hord : ∀ k v k' v', ord k v = ord k' v' → k = k') (hs : Refines A s)
    (hsurv : Survives env S A) :
    ∃ r s', idxArrive env s i ((s.secondary i).first ord p) = .ok (r, s') ∧
      r.map view = s.located (A.firstBy (fun k x => ord k (S.extract i x)) fun k x => p k (S.extract i x)) ∧
      Kept A s s' := by
  rw [first_eq (hs.entries i) hord]
  exact idxArrive_refines hs hsurv fun k x he =>
    ((FlatMap.firstBy_eq_some_iff fun _ _ _ _ he => hord _ _ _ _ he).mp he).1

lemma knownItr_eq (hs : Refines A s) (hit : it ∈ s.items) :
    knownItr s it i = (s.secondary i).handle (S.primaryKey it.obj) := by
  rw [knownItr]
  split
  · next n hn => exact (hs.itrs it hit i n hn).symm
  · rfl

lemma Refines.setKnown (hs : Refines A s) (hit : it ∈ s.items) (hh : it.primaryItr = h) :
    Refines A (s.setItr i h (knownItr s it i)) := by
  refine hs.setItr fun c hc hch j hj => ?_
  obtain rfl := inj_on_of_nodup_map hs.once hc hit (hch.trans hh.symm)
  rw [← knownItr_eq hs hc]
  exact hj

end

section

variable {A : FlatMap Key T} {s s' : State S} {k : Key} {x y : T} {h : ℕ} {it : Item S}

lemma reserved_spec (k : Key) :
    reserved k = noAvailablePrimaryKey ∨ reserved k < noAvailablePrimaryKey ∧ k.val < reserved k := by
  rw [reserved]
  split_ifs with hk
  · exact .inl rfl
  · rcases Nat.lt_or_ge (k.val + 1) noAvailablePrimaryKey with hlt | hge
    · exact .inr ⟨hlt, Nat.lt_succ_self _⟩
    · exact .inl (by omega)

lemma raisedNext_spec {B : FlatMap Key T} (hs : Refines A s) (hB : ∀ j x, B.find? j = some x → j = k ∨ ∃ y, A.find? j = some y) :
    raisedNext s k = unsetNextPrimaryKey ∨ raisedNext s k = noAvailablePrimaryKey ∨
      raisedNext s k < noAvailablePrimaryKey ∧ ∀ j x, B.find? j = some x → j.val < raisedNext s k := by
  rw [raisedNext]
  split_ifs with hk
  · rcases reserved_spec k with hres | ⟨hlt, hgt⟩
    · exact .inr (.inl hres)
    · refine .inr (.inr ⟨hlt, fun j x hj => ?_⟩)
      rcases hB j x hj with rfl | ⟨y, hy⟩
      · exact hgt
      · rcases hs.next with hn | hn | ⟨-, hn⟩
        · have hbound := k.isLt
          rw [hn, unsetNextPrimaryKey] at hk
          rw [noAvailablePrimaryKey] at hlt
          omega
        · rw [hn] at hk
          omega
        · exact lt_of_lt_of_le (hn j y hy) (hk.trans hgt.le)
  · rcases hs.next with hn | hn | ⟨hlt, hn⟩
    · exact .inl hn
    · exact .inr (.inl hn)
    · refine .inr (.inr ⟨hlt, fun j x hj => ?_⟩)
      rcases hB j x hj with rfl | ⟨y, hy⟩
      · exact not_le.mp hk
      · exact hn j y hy

lemma emplace_refines (hs : Refines A s) (hnew : A.find? (S.primaryKey x) = none) :
    ∃ it s', emplace s x = .ok (it, s') ∧ it.view = (s.primary.fresh, x) ∧
      s'.primary.handle (S.primaryKey x) = some s.primary.fresh ∧ Refines (A.set (S.primaryKey x) x) s' := by
  have hrow : s.primary.find (S.primaryKey x) = none := by rw [hs.rows, hnew]; rfl
  have hentries : ∀ i, (s.secondary i).find (S.primaryKey x) = none := fun i => by rw [hs.entries, hnew]; rfl
  have hne : ∀ c ∈ s.items, S.primaryKey x ≠ S.primaryKey c.obj := by
    intro c hc heq
    have hcached := hs.cached c hc
    rw [← heq, hnew] at hcached
    cases hcached
  refine ⟨⟨x, s.primary.fresh, fun i => some (s.secondary i).fresh⟩,
    ⟨s.primary.store (S.primaryKey x) (S.pack x), fun i => (s.secondary i).store (S.primaryKey x) (S.extract i x),
      ⟨x, s.primary.fresh, fun i => some (s.secondary i).fresh⟩ :: s.items, raisedNext s (S.primaryKey x)⟩,
    ?_, rfl, s.primary.handle_store_self, ?_⟩
  · have hstore : dbStore s.primary (S.primaryKey x) (S.pack x) = .ok _ := eosAssert_bind.mpr ⟨hrow, rfl⟩
    exact result_bind.mpr ⟨_, hstore, eosAssert_bind.mpr ⟨hentries, rfl⟩⟩
  · refine ⟨?_, ?_, ?_, ?_, ?_, ?_, ?_, ?_⟩
    · exact forall_set hs.keyed rfl
    · intro j
      rw [find_store, find?_set]
      split_ifs
      · rfl
      · exact hs.rows j
    · intro i j
      rw [find_store, find?_set]
      split_ifs
      · rfl
      · exact hs.entries i j
    · refine forall_mem_cons.mpr ⟨find?_set_self _ _ _, fun c hc => ?_⟩
      rw [find?_set_of_ne _ _ (hne c hc)]
      exact hs.cached c hc
    · refine forall_mem_cons.mpr ⟨s.primary.handle_store_self, fun c hc => ?_⟩
      exact (s.primary.handle_store_of_ne (hne c hc)).trans (hs.handles c hc)
    · refine forall_mem_cons.mpr ⟨fun i h hh => ?_, fun c hc i h hh => ?_⟩
      · rw [← Option.some.inj hh]
        exact (s.secondary i).handle_store_self
      · exact ((s.secondary i).handle_store_of_ne (hne c hc)).trans (hs.itrs c hc i h hh)
    · refine nodup_cons.mpr ⟨fun hmem => ?_, hs.once⟩
      obtain ⟨c, hc, heq⟩ := mem_map.mp hmem
      exact s.primary.fresh_ne_of_handle (hs.handles c hc) heq
    · exact raisedNext_spec hs (forall_set (fun j y hj => .inr ⟨y, hj⟩) (.inl rfl))

lemma itemAt_eq (hs : Refines A s) (hit : it ∈ s.items) : s.itemAt it.primaryItr = .ok it := by
  rw [State.itemAt]
  cases hfind : s.items.find? fun c => c.primaryItr = it.primaryItr with
  | none => exact absurd (find?_eq_none.mp hfind it hit) (by simp)
  | some c =>
    have hitr : c.primaryItr = it.primaryItr := of_decide_eq_true (find?_some hfind :)
    obtain rfl := inj_on_of_nodup_map hs.once (mem_of_find?_eq_some hfind) hit hitr
    rfl

lemma itemAt_ok (hok : s.itemAt h = .ok it) : it ∈ s.items ∧ it.primaryItr = h := by
  rw [State.itemAt] at hok
  split at hok
  · next c hc =>
    cases hok
    exact ⟨mem_of_find?_eq_some hc, of_decide_eq_true (find?_some hc :)⟩
  · cases hok

lemma Refines.atHandle (hs : Refines A s) (hit : it ∈ s.items) :
    s.primary.atHandle it.primaryItr = some (S.primaryKey it.obj, S.pack it.obj) := by
  refine s.primary.atHandle_of_handle (hs.handles it hit) ?_
  rw [hs.rows, hs.cached it hit]
  rfl

lemma Refines.idxAtHandle {i : Fin S.count} (hs : Refines A s) (hit : it ∈ s.items) :
    ∃ n, knownItr s it i = some n ∧
      (s.secondary i).atHandle n = some (S.primaryKey it.obj, S.extract i it.obj) := by
  obtain ⟨n, hn, hat⟩ := (s.secondary i).exists_handle (k := S.primaryKey it.obj) (v := S.extract i it.obj)
    (by rw [hs.entries, hs.cached it hit]; rfl)
  exact ⟨n, (knownItr_eq hs hit).trans hn, hat⟩

lemma updateIndex_spec (hs : Refines A s) (hit : it ∈ s.items) (y : T) (i : Fin S.count) :
    ∃ m, updateIndex s it y i = some m ∧ (∀ j, m.handle j = (s.secondary i).handle j) ∧
      ∀ j, m.find j = if S.primaryKey it.obj = j then some (S.extract i y) else (s.secondary i).find j := by
  have hfind : (s.secondary i).find (S.primaryKey it.obj) = some (S.extract i it.obj) := by
    rw [hs.entries, hs.cached it hit]
    rfl
  rw [updateIndex]
  split_ifs with hchanged
  · obtain ⟨n, hn, hat⟩ := hs.idxAtHandle (i := i) hit
    refine ⟨(s.secondary i).update (S.primaryKey it.obj) (S.extract i y), ?_, fun j => ?_, fun j => ?_⟩
    · rw [hn, Option.bind_some, updateAt, hat]
      rfl
    · exact (s.secondary i).handle_update hfind
    · exact (s.secondary i).find_update hfind
  · refine ⟨s.secondary i, rfl, fun _ => rfl, fun j => ?_⟩
    have hsame : S.extract i it.obj = S.extract i y := by
      simpa [changed] using hchanged
    split_ifs with hj
    · rw [← hj, hfind, hsame]
    · rfl

def modified (s : State S) (it : Item S) (y : T) : Item S :=
  { it with obj := y, iters := fun i => if changed it.obj y i then knownItr s it i else it.iters i }

section

variable (hs : Refines A s) (hit : it ∈ s.items)

include hs hit

lemma modified_itrs {y : T} {i : Fin S.count} {n : ℕ} (hn : (modified s it y).iters i = some n) :
    (s.secondary i).handle (S.primaryKey it.obj) = some n := by
  dsimp only [modified] at hn
  split_ifs at hn
  · rw [← knownItr_eq hs hit]
    exact hn
  · exact hs.itrs it hit i n hn

lemma modify_refines {updater : T → T} (hkey : S.primaryKey it.obj = S.primaryKey (updater it.obj)) :
    ∃ s', modify s it.primaryItr updater = .ok s' ∧
      Refines (A.set (S.primaryKey it.obj) (updater it.obj)) s' := by
  have hrow : s.primary.find (S.primaryKey it.obj) = some (S.pack it.obj) := by
    rw [hs.rows, hs.cached it hit]
    rfl
  have hsome : ∀ i, (updateIndex s it (updater it.obj) i).isSome = true := by
    intro i
    obtain ⟨m, hm, -⟩ := updateIndex_spec hs hit (updater it.obj) i
    rw [hm]
    rfl
  have hupdate : dbUpdate s.primary (some it.primaryItr) (S.pack (updater it.obj)) =
      .ok (s.primary.update (S.primaryKey it.obj) (S.pack (updater it.obj))) := by
    rw [dbUpdate, Option.bind_some, updateAt, hs.atHandle hit]
    rfl
  have hmem : ∀ c ∈ s.items.map fun c => if c.primaryItr = it.primaryItr then modified s it (updater it.obj) else c,
      c = modified s it (updater it.obj) ∨ c ∈ s.items ∧ S.primaryKey it.obj ≠ S.primaryKey c.obj := by
    intro c hc
    obtain ⟨d, hd, rfl⟩ := mem_map.mp hc
    split_ifs with hsame
    · exact .inl rfl
    · exact .inr ⟨hd, fun he => hsame (congrArg primaryItr (hs.item_unique hd hit he.symm))⟩
  refine ⟨⟨s.primary.update (S.primaryKey it.obj) (S.pack (updater it.obj)),
    fun i => (updateIndex s it (updater it.obj) i).getD (s.secondary i),
    s.items.map fun c => if c.primaryItr = it.primaryItr then modified s it (updater it.obj) else c,
    raisedNext s (S.primaryKey (updater it.obj))⟩, ?_, ?_⟩
  · refine result_bind.mpr ⟨it, itemAt_eq hs hit, eosioAssert_bind.mpr ⟨hkey, result_bind.mpr ⟨_, hupdate, ?_⟩⟩⟩
    exact eosAssert_bind.mpr ⟨hsome, rfl⟩
  · refine ⟨?_, ?_, ?_, ?_, ?_, ?_, ?_, ?_⟩
    · exact forall_set hs.keyed hkey.symm
    · intro j
      rw [s.primary.find_update hrow, find?_set]
      split_ifs
      · rfl
      · exact hs.rows j
    · intro i j
      obtain ⟨m, hm, -, hfind⟩ := updateIndex_spec hs hit (updater it.obj) i
      dsimp only
      rw [hm, Option.getD_some, hfind, find?_set]
      split_ifs
      · rfl
      · exact hs.entries i j
    · intro c hc
      rcases hmem c hc with rfl | ⟨hc, hne⟩
      · change (A.set _ _).find? (S.primaryKey (updater it.obj)) = some (updater it.obj)
        rw [← hkey, find?_set_self]
      · rw [find?_set_of_ne _ _ hne]
        exact hs.cached c hc
    · intro c hc
      refine (s.primary.handle_update hrow).trans ?_
      rcases hmem c hc with rfl | ⟨hc, -⟩
      · change s.primary.handle (S.primaryKey (updater it.obj)) = some it.primaryItr
        rw [← hkey]
        exact hs.handles it hit
      · exact hs.handles c hc
    · intro c hc i n hn
      obtain ⟨m, hm, hhandle, -⟩ := updateIndex_spec hs hit (updater it.obj) i
      dsimp only
      rw [hm, Option.getD_some, hhandle]
      rcases hmem c hc with rfl | ⟨hc, -⟩
      · change (s.secondary i).handle (S.primaryKey (updater it.obj)) = some n
        rw [← hkey]
        exact modified_itrs hs hit hn
      · exact hs.itrs c hc i n hn
    · have hsame : (s.items.map fun c => if c.primaryItr = it.primaryItr then modified s it (updater it.obj) else c).map
          primaryItr = s.items.map primaryItr := by
        rw [map_map]
        refine map_congr_left fun c _ => ?_
        rw [comp_apply]
        split_ifs with hc
        · exact hc.symm
        · rfl
      rw [hsame]
      exact hs.once
    · exact raisedNext_spec hs (forall_set (fun j y hj => .inr ⟨y, hj⟩) (.inl hkey))

lemma removeIndex_spec (i : Fin S.count) :
    removeIndex s it i = some ((s.secondary i).remove (S.primaryKey it.obj)) := by
  obtain ⟨n, hn, hat⟩ := hs.idxAtHandle (i := i) hit
  rw [removeIndex, hn]
  dsimp only
  rw [removeAt, hat]
  rfl

lemma erase_refines :
    ∃ s', erase s it.primaryItr = .ok s' ∧ Refines (A.erase (S.primaryKey it.obj)) s' := by
  have hremove : dbRemove s.primary it.primaryItr = .ok (s.primary.remove (S.primaryKey it.obj)) := by
    rw [dbRemove, removeAt, hs.atHandle hit]
    rfl
  have hsome : ∀ i, (removeIndex s it i).isSome = true := fun i => by rw [removeIndex_spec hs hit]; rfl
  have hmem : ∀ c ∈ s.items.eraseP fun c => S.primaryKey c.obj = S.primaryKey it.obj,
      c ∈ s.items ∧ S.primaryKey it.obj ≠ S.primaryKey c.obj := by
    intro c hc
    have hc' := mem_of_mem_eraseP hc
    refine ⟨hc', fun he => ?_⟩
    obtain rfl := hs.item_unique hit hc' he
    obtain ⟨d, before, rest, hbefore, hd, hitems, herase⟩ :=
      exists_of_eraseP (p := fun c => S.primaryKey c.obj = S.primaryKey it.obj) hit (decide_eq_true rfl)
    have hdmem : d ∈ s.items := by rw [hitems]; simp
    obtain rfl := hs.item_unique hit hdmem (of_decide_eq_true hd).symm
    have hnodup := hs.once.of_map
    rw [hitems, nodup_append] at hnodup
    rw [herase] at hc
    rcases mem_append.mp hc with hc | hc
    · exact hbefore it hc (decide_eq_true rfl)
    · exact (nodup_cons.mp hnodup.2.1).1 hc
  refine ⟨⟨s.primary.remove (S.primaryKey it.obj), fun i => (removeIndex s it i).getD (s.secondary i),
    s.items.eraseP fun c => S.primaryKey c.obj = S.primaryKey it.obj, s.nextPrimaryKey⟩, ?_, ?_⟩
  · refine result_bind.mpr ⟨it, itemAt_eq hs hit, eosioAssert_bind.mpr ⟨⟨it, hit, rfl⟩, result_bind.mpr ⟨_, hremove, ?_⟩⟩⟩
    exact eosAssert_bind.mpr ⟨hsome, rfl⟩
  · refine ⟨?_, ?_, ?_, ?_, ?_, ?_, ?_, ?_⟩
    · exact forall_erase hs.keyed
    · intro j
      rw [find_remove, find?_erase]
      split_ifs
      · rfl
      · exact hs.rows j
    · intro i j
      dsimp only
      rw [removeIndex_spec hs hit, Option.getD_some, find_remove, find?_erase]
      split_ifs
      · rfl
      · exact hs.entries i j
    · intro c hc
      obtain ⟨hc, hne⟩ := hmem c hc
      rw [find?_erase_of_ne _ hne]
      exact hs.cached c hc
    · intro c hc
      obtain ⟨hc, hne⟩ := hmem c hc
      exact (s.primary.handle_remove_of_ne hne).trans (hs.handles c hc)
    · intro c hc i n hn
      obtain ⟨hc, hne⟩ := hmem c hc
      dsimp only
      rw [removeIndex_spec hs hit, Option.getD_some, handle_remove_of_ne _ hne]
      exact hs.itrs c hc i n hn
    · exact hs.once.sublist (List.Sublist.map _ eraseP_sublist)
    · rcases hs.next with hn | hn | ⟨hlt, hn⟩
      · exact .inl hn
      · exact .inr (.inl hn)
      · exact .inr (.inr ⟨hlt, forall_erase hn⟩)

end

end

end XosChain.MultiIndex
