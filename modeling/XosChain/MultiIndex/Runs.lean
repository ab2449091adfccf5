import XosChain.MultiIndex.Heap
import XosChain.MultiIndex.Refinement

namespace XosChain.MultiIndex

open Lib Raw List FlatMap State HandleMap Item

variable {T : Type} {S : Schema T}

section

def byIndex (i : Fin S.count) (k : Key) (x : T) : S.Secondary i ×ₗ Key := bySecondary i k (S.extract i x)

def Correct (A : FlatMap Key T) (s : State S) : Op S → Outcome T → Prop
  | .emplace x, out => out = .row (some (s.primary.fresh, x))
  | .modify _ _, out => out = .done
  | .erase _, out => out = .done
  | .find k, out => out = .row (s.located ((A.find? k).map fun x => (k, x)))
  | .get k _, out => ∃ x, A.find? k = some x ∧ out = .row (s.located (some (k, x)))
  | .lowerBound k, out => out = .row (s.located (A.firstBy byKey fun j _ => k ≤ j))
  | .upperBound k, out => out = .row (s.located (A.firstBy byKey fun j _ => k < j))
  | .increment h, out => ∃ k, s.primary.handle k = some h ∧
      out = .row (s.located (A.firstBy byKey fun j _ => k < j))
  | .decrement none, out => ∃ e, A.lastBy byKey (fun _ _ => True) = some e ∧ out = .row (s.located (some e))
  | .decrement (some h), out => ∃ k e, s.primary.handle k = some h ∧ A.lastBy byKey (fun j _ => j < k) = some e ∧
      out = .row (s.located (some e))
  | .availablePrimaryKey, out => ∃ n, out = .key n ∧ ∀ k x, A.find? k = some x → k.val < n
  | .idxFind i key, out => out = .row (s.located (A.firstBy (byIndex i) fun _ x => key = S.extract i x))
  | .idxGet i key _, out => ∃ e, A.firstBy (byIndex i) (fun _ x => key = S.extract i x) = some e ∧
      out = .row (s.located (some e))
  | .idxLowerBound i key, out => out = .row (s.located (A.firstBy (byIndex i) fun _ x => key ≤ S.extract i x))
  | .idxUpperBound i key, out => out = .row (s.located (A.firstBy (byIndex i) fun _ x => key < S.extract i x))
  | .idxIncrement i h, out => ∃ k x, s.primary.handle k = some h ∧ A.find? k = some x ∧
      out = .row (s.located (A.firstBy (byIndex i) fun j y => byIndex i k x < byIndex i j y))
  | .idxDecrement i none, out => ∃ e, A.lastBy (byIndex i) (fun _ _ => True) = some e ∧
      out = .row (s.located (some e))
  | .idxDecrement i (some h), out => ∃ k x e, s.primary.handle k = some h ∧ A.find? k = some x ∧
      A.lastBy (byIndex i) (fun j y => byIndex i j y < byIndex i k x) = some e ∧ out = .row (s.located (some e))

def after (A : FlatMap Key T) (s : State S) : Op S → FlatMap Key T
  | .emplace x => A.set (S.primaryKey x) x
  | .modify h updater =>
    match s.primary.atHandle h with
    | some (k, _) => match A.find? k with
      | some x => A.set k (updater x)
      | none => A
    | none => A
  | .erase h =>
    match s.primary.atHandle h with
    | some (k, _) => A.erase k
    | none => A
  | _ => A

def State.Valid (s : State S) (h : ℕ) : Prop := ∃ it ∈ s.items, it.primaryItr = h

def Allowed (A : FlatMap Key T) (s : State S) : Op S → Prop
  | .emplace x => A.find? (S.primaryKey x) = none
  | .modify h updater => ∃ it ∈ s.items, it.primaryItr = h ∧ S.primaryKey it.obj = S.primaryKey (updater it.obj)
  | .erase h => s.Valid h
  | .get k _ => ∃ x, A.find? k = some x
  | .increment h => s.Valid h
  | .decrement none => ∃ k x, A.find? k = some x
  | .decrement (some h) => ∃ it ∈ s.items, it.primaryItr = h ∧ ∃ k x, A.find? k = some x ∧ k < S.primaryKey it.obj
  | .availablePrimaryKey => s.nextPrimaryKey ≠ noAvailablePrimaryKey ∧
      ∀ k x, A.find? k = some x → k.val + 1 < noAvailablePrimaryKey
  | .idxGet i key _ => ∃ k x, A.find? k = some x ∧ key = S.extract i x
  | .idxIncrement _ h => s.Valid h
  | .idxDecrement _ none => ∃ k x, A.find? k = some x
  | .idxDecrement i (some h) => ∃ it ∈ s.items, it.primaryItr = h ∧
      ∃ k x, A.find? k = some x ∧ byIndex i k x < byIndex i (S.primaryKey it.obj) it.obj
  | _ => True

end

section

variable {env : Env} {A : FlatMap Key T} {s s' : State S} {i : Fin S.count} {h : ℕ} {it : Item S}

lemma byIndex_injective (k : Key) (x : T) (k' : Key) (x' : T) (h : byIndex i k x = byIndex i k' x') : k = k' :=
  bySecondary_injective i _ _ _ _ h

variable {r : Option (Item S)} {O : Type} {p : Key → T → Prop} {k : Key} {x : T} {errorMsg : String}

def rowOf (r : Option (Item S) × State S) : Outcome T × State S := (.row (r.1.map view), r.2)

def itemOf (r : Item S × State S) : Outcome T × State S := (.row (some r.1.view), r.2)

def Meets {α : Type} (A : FlatMap Key T) (s : State S) (op : Op S) (out : α → Outcome T × State S) : Result α → Prop
  | .ok a => Allowed A s op ∧ Correct A s op (out a).1 ∧ Refines (after A s op) (out a).2
  | .error _ => ¬Allowed A s op

section

variable {α β : Type} {op : Op S} {out : α → Outcome T × State S} {res : Result α}

lemma Meets.map (out : α → Outcome T × State S) (h : Meets A s op out res) : Meets A s op id (res.map out) := by
  cases res <;> exact h

lemma Meets.of_iff (hok : Allowed A s op → ∃ a, res = .ok a ∧ Correct A s op (out a).1 ∧
    Refines (after A s op) (out a).2) (hallowed : ∀ a, res = .ok a → Allowed A s op) : Meets A s op out res := by
  cases hres : res with
  | error err =>
    intro hop
    obtain ⟨a, ha, -⟩ := hok hop
    rw [ha] at hres
    cases hres
  | ok a =>
    have hop := hallowed a hres
    obtain ⟨b, hb, hcorrect⟩ := hok hop
    obtain rfl := Except.ok.inj (hres.symm.trans hb)
    exact ⟨hop, hcorrect⟩

lemma Meets.row {res : Result (Option (Item S) × State S)} {e : Option (ℕ × T)} (hres : res = .ok (r, s'))
    (hview : r.map view = e) (hop : Allowed A s op) (hcorrect : Correct A s op (.row e))
    (hs' : Refines (after A s op) s') : Meets A s op rowOf res := by
  rw [hres]
  exact ⟨hop, by rw [rowOf, hview]; exact hcorrect, hs'⟩

lemma Meets.assert {p : Prop} [Decidable p] {next : Unit → Result α} (hp : Allowed A s op → p)
    (hnext : p → Meets A s op out (next ())) : Meets A s op out (eosioAssert p errorMsg >>= next) := by
  by_cases h : p
  · rw [eosioAssert, eosAssert, if_pos h]
    exact hnext h
  · rw [eosioAssert, eosAssert, if_neg h]
    exact fun hop => h (hp hop)

lemma Meets.itemAt {next : Item S → Result α} (hs : Refines A s) (hop : Allowed A s op → s.Valid h)
    (hnext : ∀ it ∈ s.items, it.primaryItr = h → Meets A s op out (next it)) :
    Meets A s op out (s.itemAt h >>= next) := by
  cases hitem : s.itemAt h with
  | ok it =>
    obtain ⟨hit, hh⟩ := itemAt_ok hitem
    exact hnext it hit hh
  | error err =>
    intro hallowed
    obtain ⟨it, hit, rfl⟩ := hop hallowed
    rw [itemAt_eq hs hit] at hitem
    cases hitem

end

lemma exists_firstBy [LinearOrder O] (ord : Key → T → O) [∀ k v, Decidable (p k v)]
    (hp : ∃ k x, A.find? k = some x ∧ p k x) : ∃ e, A.firstBy ord p = some e := by
  obtain ⟨k, x, hk, hp⟩ := hp
  cases hfirst : A.firstBy ord p with
  | none => exact absurd hp (firstBy_eq_none_iff.mp hfirst k x hk)
  | some e => exact ⟨e, rfl⟩

lemma isSome_of_view (hs : Refines A s) (hk : A.find? k = some x)
    (hview : r.map view = s.located (some (k, x))) : ∃ it, r = some it ∧ it.view ∈ s.located (some (k, x)) := by
  obtain ⟨h, hh, -⟩ := hs.exists_handle hk
  rw [located_some hh] at hview
  obtain ⟨it, rfl, hit⟩ := Option.map_eq_some_iff.mp hview
  refine ⟨it, rfl, ?_⟩
  rw [located_some hh, hit]
  rfl

lemma Meets.deref {op : Op S} {e : Option (Key × T)} (hs : Refines A s) (hview : r.map view = s.located e)
    (he : ∀ k x, e = some (k, x) → A.find? k = some x) (hop : Allowed A s op ↔ ∃ e', e = some e')
    (hcorrect : ∀ e', e = some e' → Correct A s op (.row (s.located (some e')))) (hs' : Refines (after A s op) s') :
    Meets A s op itemOf (eosioAssert (r.isSome = true) errorMsg >>= fun _ => deref r >>= fun it => pure (it, s')) := by
  cases e with
  | none =>
    obtain rfl := Option.map_eq_none_iff.mp hview
    exact .assert (fun h => by cases (hop.mp h).choose_spec) nofun
  | some e =>
    obtain ⟨it, rfl, hit⟩ := isSome_of_view hs (he e.1 e.2 rfl) hview
    refine .assert (fun _ => rfl) fun _ => ⟨hop.mpr ⟨e, rfl⟩, ?_, hs'⟩
    have hrow := hcorrect e rfl
    rw [show s.located (some e) = some it.view from hit] at hrow
    exact hrow

section

variable (hs : Refines A s) (hsurv : Survives env S A)

include hs hsurv

lemma increment_meets (h : ℕ) :
    Meets A s (.increment h) rowOf (increment env s h) := by
  refine .itemAt hs id fun it hit hh => ?_
  subst hh
  obtain ⟨r, s', harrive, hview, -, hkept⟩ :=
    search_refines (fun k => k) (fun j => S.primaryKey it.obj < j) (fun _ _ he => he) hs hsurv
  rw [dbNext, Option.bind_some, hs.atHandle hit]
  exact .row harrive hview ⟨it, hit, rfl⟩ ⟨_, hs.handles it hit, rfl⟩ hkept.refines

lemma decrement_meets (h : Option ℕ) :
    Meets A s (.decrement h) rowOf (decrement env s h) := by
  have hsearch : ∀ (p : Key → Prop) [DecidablePred p], ∃ r s', arrive env s (s.primary.last byKey fun j _ => p j) =
      .ok (r, s') ∧ r.map view = s.located (A.lastBy byKey fun j _ => p j) ∧ Refines A s' ∧
        ((s.primary.last byKey fun j _ => p j).isSome = true ↔ ∃ k x, A.find? k = some x ∧ p k) := by
    intro p _
    obtain ⟨r, s', harrive, hview, -, hkept⟩ := search_refines OrderDual.toDual p
      (fun _ _ he => OrderDual.toDual.injective he) hs hsurv
    exact ⟨r, s', harrive, hview, hkept.refines, first_isSome_iff hs.rows⟩
  cases h with
  | none =>
    obtain ⟨r, s', harrive, hview, hs', hlast⟩ := hsearch fun _ => True
    rw [decrement, previousOf, bind_assoc]
    refine .assert (fun hop => hlast.mpr (by simpa [Allowed] using hop)) fun hsome => ?_
    obtain ⟨e, he⟩ := exists_firstBy (fun k (x : T) => OrderDual.toDual (byKey k x)) (hlast.mp hsome)
    exact .row harrive (hview.trans (congrArg s.located he)) (by simpa [Allowed] using hlast.mp hsome) ⟨e, he, rfl⟩ hs'
  | some h =>
    rw [decrement, previousOf, bind_assoc]
    refine .itemAt hs (fun hop => ?_) fun it hit hh => ?_
    · obtain ⟨it, hit, hh, -⟩ := hop
      exact ⟨it, hit, hh⟩
    subst hh
    obtain ⟨r, s', harrive, hview, hs', hlast⟩ := hsearch fun j => j < S.primaryKey it.obj
    rw [dbPrevious, Option.bind_some, hs.atHandle hit]
    change Meets _ _ _ _ ((eosioAssert ((s.primary.last byKey fun j _ => j < S.primaryKey it.obj).isSome = true) _ >>=
      fun _ => pure _) >>= arrive env s)
    rw [bind_assoc]
    refine .assert (fun hop => hlast.mpr ?_) fun hsome => ?_
    · obtain ⟨c, hc, heq, hbefore⟩ := hop
      rwa [← inj_on_of_nodup_map hs.once hc hit heq]
    · obtain ⟨e, he⟩ := exists_firstBy (fun k (x : T) => OrderDual.toDual (byKey k x)) (hlast.mp hsome)
      exact .row harrive (hview.trans (congrArg s.located he)) ⟨it, hit, rfl, hlast.mp hsome⟩
        ⟨_, e, hs.handles it hit, he, rfl⟩ hs'

lemma nextFromLast_spec :
    ∃ s', nextFromLast env s = .ok s' ∧ Refines A s' ∧
      (s.nextPrimaryKey ≠ unsetNextPrimaryKey ∧ s' = s ∨
        s.nextPrimaryKey = unsetNextPrimaryKey ∧ ((∀ k, A.find? k = none) ∧ s'.nextPrimaryKey = 0 ∨
          ∃ k x, A.find? k = some x ∧ (∀ j y, A.find? j = some y → j ≤ k) ∧ s'.nextPrimaryKey = reserved k)) := by
  rw [nextFromLast]
  by_cases hunset : s.nextPrimaryKey = unsetNextPrimaryKey
  · rw [if_pos hunset]
    obtain ⟨r, t, hfirst, hview, -, hkept⟩ :=
      search_refines (fun k => k) (fun j => 0 ≤ j) (fun _ _ he => he) hs hsurv
    cases hrow : A.firstBy byKey (fun j _ => 0 ≤ j) with
    | none =>
      have hempty : ∀ k, A.find? k = none := by
        intro k
        by_contra hk
        obtain ⟨x, hx⟩ := Option.ne_none_iff_exists'.mp hk
        exact firstBy_eq_none_iff.mp hrow k x hx (Fin.zero_le k)
      have hr : r = none := Option.map_eq_none_iff.mp (hview.trans (congrArg s.located hrow))
      subst hr
      refine ⟨{ t with nextPrimaryKey := 0 }, result_bind.mpr ⟨_, hfirst, rfl⟩, ?_, .inr ⟨hunset, .inl ⟨hempty, rfl⟩⟩⟩
      have ht := hkept.refines
      refine ⟨ht.keyed, ht.rows, ht.entries, ht.cached, ht.handles, ht.itrs, ht.once, .inr (.inr ⟨?_, ?_⟩)⟩
      · change 0 < noAvailablePrimaryKey
        decide
      intro k x hx
      rw [hempty k] at hx
      cases hx
    | some e =>
      obtain ⟨hk, -⟩ := (firstBy_eq_some_iff (k := e.1) (v := e.2) byKey_injective).mp hrow
      obtain ⟨it, rfl, -⟩ := isSome_of_view hs hk (hview.trans (congrArg s.located hrow))
      obtain ⟨l, hl⟩ := exists_firstBy (p := fun _ _ => True) (fun k (x : T) => OrderDual.toDual (byKey k x))
        ⟨e.1, e.2, hk, trivial⟩
      have hord : ∀ (k : Key) (x : T) (k' : Key) (x' : T),
        OrderDual.toDual (byKey k x) = OrderDual.toDual (byKey k' x') → k = k' :=
        fun _ _ _ _ he => OrderDual.toDual.injective he
      obtain ⟨hlk, -, hmax⟩ := (firstBy_eq_some_iff (k := l.1) (v := l.2) hord).mp hl
      obtain ⟨r', u, harrive, hview', -, hkept'⟩ := search_refines OrderDual.toDual (fun _ => True)
        (fun _ _ he => OrderDual.toDual.injective he) hkept.refines hsurv
      have hsome : (t.primary.last byKey fun _ _ => True).isSome = true :=
        (first_isSome_iff hkept.refines.rows).mpr ⟨l.1, l.2, hlk, trivial⟩
      have hdec : decrement env t none = .ok (r', u) :=
        result_bind.mpr ⟨_, eosioAssert_bind.mpr ⟨hsome, rfl⟩, harrive⟩
      replace hview' := hview'.trans (congrArg t.located hl)
      obtain ⟨c, rfl, hc⟩ := isSome_of_view hkept.refines hlk hview'
      obtain ⟨h, hh, -⟩ := hkept.refines.exists_handle hlk
      rw [located_some hh] at hc
      have hobj : c.obj = l.2 := (Prod.mk.inj (Option.some.inj hc)).2.symm
      have hmax' : ∀ j y, A.find? j = some y → j ≤ l.1 := fun j y hj => hmax j y hj trivial
      have hnext : reserved (S.primaryKey c.obj) = reserved l.1 := by
        rw [hobj, hs.keyed l.1 l.2 hlk]
      refine ⟨{ u with nextPrimaryKey := reserved (S.primaryKey c.obj) }, ?_, ?_,
        .inr ⟨hunset, .inr ⟨l.1, l.2, hlk, hmax', hnext⟩⟩⟩
      · exact result_bind.mpr ⟨_, hfirst, result_bind.mpr ⟨_, hdec, rfl⟩⟩
      · have hu := hkept'.refines
        refine ⟨hu.keyed, hu.rows, hu.entries, hu.cached, hu.handles, hu.itrs, hu.once, .inr ?_⟩
        rw [hnext]
        rcases reserved_spec l.1 with hres | ⟨hlt, hgt⟩
        · exact .inl hres
        · exact .inr ⟨hlt, fun j y hj => lt_of_le_of_lt (hmax' j y hj) hgt⟩
  · rw [if_neg hunset]
    exact ⟨s, rfl, hs, .inl ⟨hunset, rfl⟩⟩

lemma available_meets :
    Meets A s .availablePrimaryKey (fun r => (.key r.1, r.2)) (availablePrimaryKey env s) := by
  obtain ⟨s', hnext, hs', hcases⟩ := nextFromLast_spec hs hsurv
  rw [availablePrimaryKey, hnext]
  refine .assert (fun hop => ?_) fun hlt => ?_
  · obtain ⟨hlimit, hkeys⟩ := hop
    rcases hcases with ⟨hset, rfl⟩ | ⟨-, ⟨-, hzero⟩ | ⟨k, x, hk, -, hres⟩⟩
    · rcases hs.next with hn | hn | hn
      · exact absurd hn hset
      · exact absurd hn hlimit
      · exact hn.1
    · rw [hzero]
      decide
    · have hlt := hkeys k x hk
      rw [hres, reserved, if_neg (by omega)]
      exact hlt
  · rcases hs'.next with hn | hn | ⟨-, hn⟩
    · exact absurd (hn ▸ hlt) (by decide)
    · exact absurd (hn ▸ hlt) (lt_irrefl _)
    refine ⟨⟨?_, fun k x hk => lt_of_le_of_lt (hn k x hk) hlt⟩, ⟨_, rfl, hn⟩, hs'⟩
    rcases hcases with ⟨-, rfl⟩ | ⟨hunset, -⟩
    · exact hlt.ne
    · rw [hunset]
      decide

end

lemma located_filter (hs : Refines A s) {e : Option (Key × T)} (he : ∀ k x, e = some (k, x) → A.find? k = some x)
    (hview : r.map view = s.located e) (p : T → Prop) [DecidablePred p] :
    (r.filter fun it => p it.obj).map view = s.located (e.filter fun e => p e.2) := by
  cases e with
  | none =>
    obtain rfl := Option.map_eq_none_iff.mp hview
    rfl
  | some e =>
    obtain ⟨k, x⟩ := e
    obtain ⟨h, hh, -⟩ := hs.exists_handle (he k x rfl)
    rw [located_some hh] at hview
    obtain ⟨it, rfl, hit⟩ := Option.map_eq_some_iff.mp hview
    have hobj : it.obj = x := (Prod.mk.inj hit).2
    by_cases hp : p x
    · simp [Option.filter, hobj, hp, hit, located_some hh]
    · simp [Option.filter, hobj, hp, located]

lemma firstBy_filter_eq (A : FlatMap Key T) (i : Fin S.count) (key : S.Secondary i) :
    (A.firstBy (byIndex i) fun _ x => key ≤ S.extract i x).filter (fun e => key = S.extract i e.2) =
      A.firstBy (byIndex i) fun _ x => key = S.extract i x := by
  cases hlower : A.firstBy (byIndex i) fun _ x => key ≤ S.extract i x with
  | none =>
    refine (firstBy_eq_none_iff.mpr fun k x hk hx => ?_).symm
    exact firstBy_eq_none_iff.mp hlower k x hk hx.le
  | some e =>
    obtain ⟨k, x⟩ := e
    obtain ⟨hk, hle, hmin⟩ := (firstBy_eq_some_iff byIndex_injective).mp hlower
    by_cases hx : key = S.extract i x
    · rw [Option.filter_some, if_pos (decide_eq_true hx)]
      refine ((firstBy_eq_some_iff byIndex_injective).mpr ⟨hk, hx, fun j y hj hy => ?_⟩).symm
      exact hmin j y hj hy.le
    · rw [Option.filter_some, if_neg (by simpa using hx)]
      refine (firstBy_eq_none_iff.mpr fun j y hj hy => ?_).symm
      have hord := hmin j y hj hy.le
      rcases Prod.Lex.toLex_le_toLex.mp hord with hlt | ⟨heq, -⟩
      · exact absurd (lt_of_lt_of_le hlt (hy ▸ hle)) (lt_irrefl _)
      · exact hx (hy.trans heq.symm)

section

variable (hs : Refines A s) (hsurv : Survives env S A)

include hs hsurv

lemma idxFind_ok (key : S.Secondary i) :
    ∃ r s', idxFind env s i key = .ok (r, s') ∧
      r.map view = s.located (A.firstBy (byIndex i) fun _ x => key = S.extract i x) ∧ Refines A s' := by
  obtain ⟨lb, s', hlb, hview, hkept⟩ :=
    idxSearch_refines (bySecondary i) (fun _ v => key ≤ v) (bySecondary_injective i) hs hsurv
  refine ⟨_, s', result_bind.mpr ⟨_, hlb, rfl⟩, ?_, hkept.refines⟩
  have hfound : ∀ k x, (A.firstBy (byIndex i) fun _ x => key ≤ S.extract i x) = some (k, x) → A.find? k = some x :=
    fun k x he => ((firstBy_eq_some_iff byIndex_injective).mp he).1
  rw [← firstBy_filter_eq]
  exact located_filter hs hfound hview fun x => key = S.extract i x

lemma idxIncrement_meets (h : ℕ) :
    Meets A s (.idxIncrement i h) rowOf (idxIncrement env s i h) := by
  refine .itemAt hs id fun it hit hh => ?_
  subst hh
  obtain ⟨n, hn, hat⟩ := hs.idxAtHandle (i := i) hit
  obtain ⟨r, s', harrive, hview, hkept⟩ := idxSearch_refines (bySecondary i)
    (fun j w => bySecondary i (S.primaryKey it.obj) (S.extract i it.obj) < bySecondary i j w) (bySecondary_injective i)
    (hs.setKnown (i := i) hit rfl) hsurv
  have hnext : dbNext (s.secondary i) (bySecondary i) (knownItr s it i) = .ok ((s.secondary i).first (bySecondary i)
      fun j w => bySecondary i (S.primaryKey it.obj) (S.extract i it.obj) < bySecondary i j w) := by
    rw [dbNext, hn, Option.bind_some, hat]
    rfl
  exact .row (result_bind.mpr ⟨_, hnext, harrive⟩) hview ⟨it, hit, rfl⟩
    ⟨_, _, hs.handles it hit, hs.cached it hit, rfl⟩ hkept.refines

lemma idxDecrement_meets (h : Option ℕ) :
    Meets A s (.idxDecrement i h) rowOf (idxDecrement env s i h) := by
  have hsearch : ∀ {t : State S} (_ : Refines A t) (p : Key → S.Secondary i → Prop) [∀ k v, Decidable (p k v)],
      ∃ r s', idxArrive env t i ((t.secondary i).last (bySecondary i) p) = .ok (r, s') ∧
        r.map view = t.located (A.lastBy (byIndex i) fun j y => p j (S.extract i y)) ∧ Refines A s' ∧
        (((t.secondary i).last (bySecondary i) p).isSome = true ↔ ∃ k x, A.find? k = some x ∧ p k (S.extract i x)) := by
    intro t ht p _
    obtain ⟨r, s', harrive, hview, hkept⟩ := idxSearch_refines (fun k v => OrderDual.toDual (bySecondary i k v)) p
      (fun _ _ _ _ he => bySecondary_injective i _ _ _ _ (OrderDual.toDual.injective he)) ht hsurv
    exact ⟨r, s', harrive, hview, hkept.refines, first_isSome_iff (ht.entries i)⟩
  cases h with
  | none =>
    obtain ⟨r, s', harrive, hview, hs', hlast⟩ := hsearch hs fun _ _ => True
    refine .assert (fun hop => hlast.mpr (by simpa [Allowed] using hop)) fun hsome => ?_
    obtain ⟨e, he⟩ := exists_firstBy (fun k x => OrderDual.toDual (byIndex i k x)) (hlast.mp hsome)
    exact .row harrive (hview.trans (congrArg s.located he)) (by simpa [Allowed] using hlast.mp hsome) ⟨e, he, rfl⟩ hs'
  | some h =>
    refine .itemAt hs (fun hop => ?_) fun it hit hh => ?_
    · obtain ⟨it, hit, hh, -⟩ := hop
      exact ⟨it, hit, hh⟩
    subst hh
    obtain ⟨n, hn, hat⟩ := hs.idxAtHandle (i := i) hit
    obtain ⟨r, s', harrive, hview, hs', hlast⟩ := hsearch (hs.setKnown (i := i) hit rfl)
      fun j w => bySecondary i j w < bySecondary i (S.primaryKey it.obj) (S.extract i it.obj)
    have hprev : dbPrevious (s.secondary i) (bySecondary i) (knownItr s it i) = .ok ((s.secondary i).last
        (bySecondary i) fun j w => bySecondary i j w < bySecondary i (S.primaryKey it.obj) (S.extract i it.obj)) := by
      rw [dbPrevious, hn, Option.bind_some, hat]
      rfl
    change Meets _ _ _ _ (dbPrevious (s.secondary i) (bySecondary i) (knownItr s it i) >>= _)
    rw [hprev]
    refine .assert (fun hop => hlast.mpr ?_) fun hsome => ?_
    · obtain ⟨c, hc, heq, hbefore⟩ := hop
      rw [inj_on_of_nodup_map hs.once hc hit heq] at hbefore
      exact hbefore
    · obtain ⟨e, he⟩ := exists_firstBy (fun k x => OrderDual.toDual (byIndex i k x)) (hlast.mp hsome)
      exact .row harrive (hview.trans (congrArg s.located he)) ⟨it, hit, rfl, hlast.mp hsome⟩
        ⟨_, _, e, hs.handles it hit, hs.cached it hit, he, rfl⟩ hs'

end

lemma emplace_allowed (hs : Refines A s) (hok : emplace s x = .ok (it, s')) :
    A.find? (S.primaryKey x) = none := by
  obtain ⟨m, hm, -⟩ := bind_ok hok
  obtain ⟨hnone, -⟩ := eosAssert_ok hm
  rw [hs.rows] at hnone
  exact Option.map_eq_none_iff.mp hnone

lemma apply_meets (hs : Refines A s) (hsurv : Survives env S A) (op : Op S) :
    Meets A s op id (s.apply env op) := by
  cases op with
  | emplace x =>
    refine Meets.map itemOf (.of_iff (fun hnew => ?_) fun r hr => emplace_allowed hs hr)
    obtain ⟨it, s', hok, hview, -, hs'⟩ := emplace_refines hs hnew
    exact ⟨_, hok, by rw [itemOf, hview]; rfl, hs'⟩
  | modify h updater =>
    refine Meets.map _ (.of_iff (fun hop => ?_) fun r hr => ?_)
    · obtain ⟨it, hit, rfl, hkey⟩ := hop
      obtain ⟨s', hok, hs'⟩ := modify_refines hs hit hkey
      refine ⟨s', hok, rfl, ?_⟩
      rw [after, hs.atHandle hit]
      dsimp only
      rw [hs.cached it hit]
      exact hs'
    · obtain ⟨it, hitem, hr⟩ := bind_ok hr
      obtain ⟨hkey, -⟩ := eosioAssert_ok hr
      obtain ⟨hit, hh⟩ := itemAt_ok hitem
      exact ⟨it, hit, hh, hkey⟩
  | erase h =>
    refine Meets.map _ (.of_iff (fun hop => ?_) fun r hr => ?_)
    · obtain ⟨it, hit, rfl⟩ := hop
      obtain ⟨s', hok, hs'⟩ := erase_refines hs hit
      refine ⟨s', hok, rfl, ?_⟩
      rw [after, hs.atHandle hit]
      exact hs'
    · obtain ⟨it, hitem, -⟩ := bind_ok hr
      exact ⟨it, itemAt_ok hitem⟩
  | find k =>
    obtain ⟨r, s', hok, hview, -, hkept⟩ := find_refines hs hsurv k
    exact Meets.map rowOf (.row hok hview trivial rfl hkept.refines)
  | get k errorMsg =>
    obtain ⟨r, s', hfind, hview, -, hkept⟩ := find_refines hs hsurv k
    refine Meets.map itemOf ?_
    rw [MultiIndex.get, hfind]
    refine .deref hs hview (fun j x he => ?_) ?_ (fun e he => ?_) hkept.refines
    · obtain ⟨y, hy, heq⟩ := Option.map_eq_some_iff.mp he
      obtain ⟨rfl, rfl⟩ := Prod.mk.inj heq
      exact hy
    · simp [Allowed]
    · obtain ⟨y, hy, rfl⟩ := Option.map_eq_some_iff.mp he
      exact ⟨y, hy, rfl⟩
  | lowerBound k =>
    obtain ⟨r, s', hok, hview, -, hkept⟩ := search_refines (fun j => j) (fun j => k ≤ j) (fun _ _ he => he) hs hsurv
    exact Meets.map rowOf (.row hok hview trivial rfl hkept.refines)
  | upperBound k =>
    obtain ⟨r, s', hok, hview, -, hkept⟩ := search_refines (fun j => j) (fun j => k < j) (fun _ _ he => he) hs hsurv
    exact Meets.map rowOf (.row hok hview trivial rfl hkept.refines)
  | increment h => exact Meets.map _ (increment_meets hs hsurv h)
  | decrement h => exact Meets.map _ (decrement_meets hs hsurv h)
  | availablePrimaryKey => exact Meets.map _ (available_meets hs hsurv)
  | idxFind i key =>
    obtain ⟨r, s', hok, hview, hs'⟩ := idxFind_ok hs hsurv key
    exact Meets.map rowOf (.row hok hview trivial rfl hs')
  | idxGet i key errorMsg =>
    obtain ⟨r, s', hfind, hview, hs'⟩ := idxFind_ok hs hsurv key
    refine Meets.map itemOf ?_
    rw [MultiIndex.idxGet, hfind]
    have hsome : ∀ k x, A.firstBy (byIndex i) (fun _ x => key = S.extract i x) = some (k, x) →
        A.find? k = some x ∧ key = S.extract i x := fun k x he =>
      ⟨((firstBy_eq_some_iff byIndex_injective).mp he).1,
        ((firstBy_eq_some_iff byIndex_injective).mp he).2.1⟩
    refine .deref hs hview (fun k x he => (hsome k x he).1) ⟨exists_firstBy _, ?_⟩ (fun e he => ⟨e, he, rfl⟩) hs'
    rintro ⟨e, he⟩
    exact ⟨e.1, e.2, hsome e.1 e.2 he⟩
  | idxLowerBound i key =>
    obtain ⟨r, s', hok, hview, hkept⟩ :=
      idxSearch_refines (bySecondary i) (fun _ v => key ≤ v) (bySecondary_injective i) hs hsurv
    exact Meets.map rowOf (.row hok hview trivial rfl hkept.refines)
  | idxUpperBound i key =>
    obtain ⟨r, s', hok, hview, hkept⟩ :=
      idxSearch_refines (bySecondary i) (fun _ v => key < v) (bySecondary_injective i) hs hsurv
    exact Meets.map rowOf (.row hok hview trivial rfl hkept.refines)
  | idxIncrement i h => exact Meets.map _ (idxIncrement_meets hs hsurv h)
  | idxDecrement i h => exact Meets.map _ (idxDecrement_meets hs hsurv h)

end

section

def Indexed (A : FlatMap Key T) (s : State S) : Prop :=
  ∀ i k, (s.secondary i).find k = (A.find? k).map (S.extract i)

structure Opened (A : FlatMap Key T) (s : State S) : Prop where
  keyed : ∀ k x, A.find? k = some x → S.primaryKey x = k
  rows : ∀ k, s.primary.find k = (A.find? k).map S.pack
  indexed : Indexed A s
  items : s.items = []
  next : s.nextPrimaryKey = unsetNextPrimaryKey

def Agrees : FlatMap Key T → State S → List (Env × Op S) → Prop
  | A, s, [] => Indexed A s
  | A, s, (env, op) :: rest => Indexed A s ∧
    match s.apply env op with
    | .ok (out, s') => Allowed A s op ∧ Correct A s op out ∧ Agrees (after A s op) s' rest
    | .error _ => ¬Allowed A s op

variable {A : FlatMap Key T} {s : State S} {env : Env}

lemma Opened.refines (hs : Opened A s) : Refines A s where
  keyed := hs.keyed
  rows := hs.rows
  entries := hs.indexed
  cached := by
    rw [hs.items]
    exact forall_mem_nil _
  handles := by
    rw [hs.items]
    exact forall_mem_nil _
  itrs := by
    rw [hs.items]
    exact forall_mem_nil _
  once := by
    rw [hs.items]
    exact nodup_nil
  next := .inl hs.next

lemma run_agrees {steps : List (Env × Op S)} (hs : Refines A s) (hsurv : ∀ e ∈ steps, ∀ B, Survives e.1 S B) :
    Agrees A s steps := by
  induction steps generalizing A s with
  | nil => exact hs.entries
  | cons e rest ih =>
    obtain ⟨env, op⟩ := e
    obtain ⟨henv, hrest⟩ := forall_mem_cons.mp hsurv
    have hmeets := apply_meets hs (henv A) op
    refine ⟨hs.entries, ?_⟩
    cases happly : s.apply env op with
    | error err =>
      rw [happly] at hmeets
      exact hmeets
    | ok r =>
      rw [happly] at hmeets
      exact ⟨hmeets.1, hmeets.2.1, ih hmeets.2.2 hrest⟩

def State.single (S : Schema T) (x : T) : State S where
  primary := empty.store (S.primaryKey x) (S.pack x)
  secondary i := empty.store (S.primaryKey x) (S.extract i x)

lemma opened_single (S : Schema T) (x : T) :
    Opened (empty.set (S.primaryKey x) x) (single S x) where
  keyed := forall_set nofun rfl
  rows := by
    intro k
    rw [find?_set]
    refine (find_store _).trans ?_
    split_ifs <;> rfl
  indexed := by
    intro i k
    rw [find?_set]
    refine (find_store _).trans ?_
    split_ifs <;> rfl
  items := rfl
  next := rfl

lemma find_single (S : Schema T) (env : Env) (x : T) :
    (single S x).apply env (.find (S.primaryKey x)) = (readObject (S := S) env (S.pack x)).map fun y =>
      (.row (some (0, y)), { single S x with items := [{ obj := y, primaryItr := 0 }] }) := by
  have hhandle : (single S x).primary.handle (S.primaryKey x) = some 0 :=
    empty.handle_store_self
  have hfind : (single S x).primary.find (S.primaryKey x) = some (S.pack x) :=
    (find_store _).trans (if_pos rfl)
  have hget : dbGet (single S x).primary 0 = .ok (S.pack x) := by
    rw [dbGet, (single S x).primary.atHandle_of_handle hhandle hfind]
    rfl
  have hload : find env (single S x) (S.primaryKey x) =
      (loadObjectByPrimaryIterator env (single S x) 0 >>= fun r => pure (some r.1, r.2)) := by
    change arrive env _ (((single S x).primary.handle (S.primaryKey x)).map _) = _
    rw [hhandle]
    rfl
  have hitem : loadObjectByPrimaryIterator env (single S x) 0 =
      (readObject (S := S) env (S.pack x) >>= fun y => pure ({ obj := y, primaryItr := 0 },
        { single S x with items := [{ obj := y, primaryItr := 0 }] })) := by
    change (dbGet (single S x).primary 0 >>= _) = _
    rw [hget]
    rfl
  rw [apply, hload, hitem]
  cases readObject (S := S) env (S.pack x) <;> rfl

lemma single_agrees {x : T} (hsize : maxStackBufferSize < (S.pack x).length)
    (hagrees : Agrees (empty.set (S.primaryKey x) x) (single S x) [(env, .find (S.primaryKey x))]) :
    S.unpack (env.reread (S.pack x)) = some x := by
  obtain ⟨-, hstep⟩ := hagrees
  rw [find_single, readObject, if_pos hsize] at hstep
  cases hread : S.unpack (env.reread (S.pack x)) with
  | none =>
    rw [hread] at hstep
    exact absurd trivial hstep
  | some y =>
    rw [hread] at hstep
    have hrow : Outcome.row (some (0, y)) = .row ((single S x).located _) := hstep.2.1
    have hhandle : (single S x).primary.handle (S.primaryKey x) = some 0 :=
    empty.handle_store_self
    rw [find?_set_self, Option.map_some, located_some hhandle] at hrow
    exact congrArg some (Prod.mk.inj (Option.some.inj (Outcome.row.inj hrow))).2

theorem table_refined_iff (S : Schema T) (E : Set Env) :
    (∀ (A : FlatMap Key T) (s : State S), Opened A s → ∀ steps : List (Env × Op S), (∀ e ∈ steps, e.1 ∈ E) →
      Agrees A s steps) ↔
    ∀ env ∈ E, ∀ x, maxStackBufferSize < (S.pack x).length → S.unpack (env.reread (S.pack x)) = some x := by
  constructor
  · intro hruns env henv x hsize
    refine single_agrees hsize (hruns _ _ (opened_single S x) _ ?_)
    exact forall_mem_singleton.mpr henv
  · intro hkeeps A s hs steps hsteps
    exact run_agrees hs.refines fun e he B k x _ hsize => hkeeps e.1 (hsteps e he) x hsize

end

section

structure Proposal where
  proposalName : Name
  packedTransaction : Bytes
  fits : packedTransaction.length < 2 ^ 32

def Proposal.pack (p : Proposal) : Bytes :=
  packName p.proposalName ++ (packUnsignedInt p.packedTransaction.length ++ p.packedTransaction)

def Proposal.unpack (bytes : Bytes) : Option Proposal := do
  let (proposalName, ds) ← (unpackName ⟨bytes.length, bytes⟩).toOption
  let (size, ds) ← (unpackUnsignedInt ds).toOption
  let (packedTransaction, _) ← (ds.read size).toOption
  if fits : packedTransaction.length < 2 ^ 32 then some ⟨proposalName, packedTransaction, fits⟩ else none

lemma Proposal.unpack_pack (p : Proposal) : Proposal.unpack p.pack = some p := by
  have hname : (unpackName ⟨p.pack.length, p.pack⟩).toOption = some _ :=
    congrArg Except.toOption (unpackName_pack _ _ _)
  have hsize : (unpackUnsignedInt ⟨p.pack.length, _⟩).toOption = some _ :=
    congrArg Except.toOption (unpackUnsignedInt_pack _ p.packedTransaction p.fits)
  have hread : (Datastream.read ⟨p.pack.length, p.packedTransaction⟩ p.packedTransaction.length).toOption =
      some (p.packedTransaction, ⟨p.pack.length, []⟩) := by
    rw [Datastream.read, if_pos le_rfl, take_length, drop_length]
    rfl
  rw [Proposal.unpack]
  refine Option.bind_eq_some_iff.mpr ⟨_, hname, Option.bind_eq_some_iff.mpr ⟨_, hsize, ?_⟩⟩
  exact Option.bind_eq_some_iff.mpr ⟨_, hread, dif_pos p.fits⟩

def proposals : Schema Proposal where
  pack := Proposal.pack
  unpack := Proposal.unpack
  unpack_pack := Proposal.unpack_pack
  primaryKey := Proposal.proposalName
  count := 0
  count_le := Nat.zero_le _
  Secondary i := i.elim0
  order i := i.elim0
  extract i := i.elim0

def proposalMembers : List (ℕ × Bytes) :=
  [(0, List.replicate 8 0), (8, List.replicate 12 0), (20, littleEndian 4 1024)]

def largeProposal : Proposal := ⟨Name.ofNat 1, List.replicate 600 7, by rw [length_replicate]; omega⟩

def fullHeap : Heap := ⟨[⟨8188, true⟩], 612, [⟨57340, true⟩]⟩

theorem found_overwritten :
    Opened (empty.set 1 largeProposal) (single proposals largeProposal) ∧
    (find (fullHeap.env 36 proposalMembers) (single proposals largeProposal) 1).map
      (fun r => r.1.map fun it => (it.obj.proposalName, it.obj.packedTransaction)) = .ok (some (0, [])) ∧
    ¬Agrees (empty.set 1 largeProposal) (single proposals largeProposal)
      [(fullHeap.env 36 proposalMembers, .find 1)] := by
  refine ⟨opened_single proposals largeProposal, by decide +kernel, fun hagrees => ?_⟩
  have hread := single_agrees (S := proposals) (x := largeProposal) (by decide +kernel) hagrees
  have hname := congrArg (Option.map Proposal.proposalName) hread
  revert hname
  decide +kernel

end

end XosChain.MultiIndex
