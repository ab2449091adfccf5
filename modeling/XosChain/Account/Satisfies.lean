import XosChain.Account.Tree

namespace XosChain

open Lib Config FlatMap

namespace Db

variable {db : Db} {rt : Runtime} {this other : Permission}

variable {p : PermissionObject} {account : AccountName}

section

variable (h : Forest db)

include h

lemma Forest.parent_row {i : ℕ} (hp : db.permissions.find? i = some p) :
    ∃ q, db.permissions.find? p.parent = some q := by
  by_cases hz : p.parent = 0
  · exact ⟨{}, by rw [hz]; exact h.reserved⟩
  · obtain ⟨-, q, hq, -⟩ := h.parent i p hp hz
    exact ⟨q, hq⟩

lemma Forest.climb_eq {id : ℕ} (hid : id ≠ 0) (fuel i : ℕ) (hi : ∃ p, db.permissions.find? i = some p) :
    db.climb id fuel i = reaches db.parentOf id fuel i := by
  induction fuel generalizing i with
  | zero => rfl
  | succ fuel ih =>
    obtain ⟨p, hp⟩ := hi
    rw [climb, reaches, parentOf, hp]
    by_cases hz : p.parent = 0
    · simp [hz, hid]
    · simp only [Option.bind_some, if_neg hz]
      by_cases he : id = p.parent
      · simp [he]
      · simp [he, Ne.symm he, ih _ (h.parent_row hp)]

lemma Forest.parentOf_lt (i j : ℕ) (hj : db.parentOf i = some j) : j < i := by
  obtain ⟨p, hp, rfl, hz⟩ := parentOf_eq_some.mp hj
  exact (h.parent i p hp hz).1

lemma Forest.parentOf_mem (i j : ℕ) (hj : db.parentOf i = some j) :
    i ∈ db.permissions.keys.toFinset.erase 0 ∧ j < i := by
  have hlt := h.parentOf_lt i j hj
  obtain ⟨p, hp, -⟩ := parentOf_eq_some.mp hj
  rw [Finset.mem_erase, List.mem_toFinset, mem_keys_iff]
  exact ⟨⟨by omega, p, hp⟩, hlt⟩

lemma Forest.card_lt (i : ℕ) :
    ((db.permissions.keys.toFinset.erase 0).filter (· ≤ i)).card < db.permissions.size := by
  have hm : 0 ∈ db.permissions.keys.toFinset := by
    rw [List.mem_toFinset, mem_keys_iff]
    exact ⟨_, h.reserved⟩
  have hsize : db.permissions.keys.toFinset.card = db.permissions.size := by
    rw [List.toFinset_card_of_nodup db.permissions.keys_nodup, keys, List.length_map, size]
  calc ((db.permissions.keys.toFinset.erase 0).filter (· ≤ i)).card
      ≤ (db.permissions.keys.toFinset.erase 0).card := Finset.card_filter_le _ _
    _ < db.permissions.keys.toFinset.card := Finset.card_erase_lt_of_mem hm
    _ = db.permissions.size := hsize

lemma Forest.eq_zero_of_owner (ht : db.permissions.find? this.1 = some this.2)
    (ho : db.permissions.find? other.1 = some other.2) (he : this.2.owner = other.2.owner) (hz : this.1 = 0) :
    other.1 = 0 := by
  by_contra hne
  have ha := (h.owned other.1 other.2 hne ho).1
  rw [hz, h.reserved] at ht
  rw [← he, ← Option.some.inj ht, h.named] at ha
  cases ha

lemma Forest.ancestor_iff (ho : db.permissions.find? other.1 = some other.2) (hne : this.1 ≠ other.1)
    (hp : this.1 ≠ other.2.parent) :
    db.IsAncestor this.1 other.1 ↔ Relation.TransGen (Edge db.parentOf) other.2.parent this.1 := by
  rw [IsAncestor, Relation.reflTransGen_iff_eq_or_transGen, or_iff_right hne]
  by_cases hz : other.2.parent = 0
  · have hn : db.parentOf other.1 = none := by simp [parentOf, ho, hz]
    have hn0 : db.parentOf other.2.parent = none := by simp [parentOf, hz, h.reserved]
    exact iff_of_false (not_transGen_of_none hn) (not_transGen_of_none hn0)
  · have hs : db.parentOf other.1 = some other.2.parent := parentOf_eq_some.mpr ⟨other.2, ho, rfl, hz⟩
    rw [transGen_iff_of_edge hs, or_iff_right (Ne.symm hp)]

lemma Forest.satisfiesWithin (ht : db.permissions.find? this.1 = some this.2)
    (ho : db.permissions.find? other.1 = some other.2) {fuel : ℕ} (hf : db.permissions.size ≤ fuel) :
    ∃ b, db.satisfiesWithin fuel this other = some b ∧
      (b = true ↔ this.2.owner = other.2.owner ∧ db.IsAncestor this.1 other.1) := by
  rw [Db.satisfiesWithin]
  by_cases he : this.2.owner = other.2.owner
  · simp only [he, ne_eq, not_true, if_false, true_and]
    by_cases hid : this.1 = other.1
    · rw [hid]
      exact ⟨true, by simp, iff_of_true rfl Relation.ReflTransGen.refl⟩
    by_cases hp : this.1 = other.2.parent
    · have hz : this.1 ≠ 0 := fun hz => hid (hz.trans (h.eq_zero_of_owner ht ho he hz).symm)
      have hs : db.parentOf other.1 = some this.1 := parentOf_eq_some.mpr ⟨other.2, ho, hp.symm, hz⟩
      exact ⟨true, by simp [hp], iff_of_true rfl (Relation.ReflTransGen.single hs)⟩
    · have hz : this.1 ≠ 0 := fun hz => hid (hz.trans (h.eq_zero_of_owner ht ho he hz).symm)
      rw [if_neg (not_or.mpr ⟨hid, hp⟩), h.climb_eq hz fuel _ (h.parent_row ho), h.ancestor_iff ho hid hp]
      exact reaches_eq h.parentOf_mem this.1 ((h.card_lt _).trans_le hf)
  · exact ⟨false, by simp [he], by simp [he]⟩

end

structure IsTree (db : Db) (account : AccountName) : Prop where
  rooted : ∃ r p, db.permissions.find? r = some p ∧ p.owner = account ∧ p.name = ownerName ∧ p.parent = 0 ∧
    ∀ i q, db.permissions.find? i = some q → q.owner = account → db.IsAncestor r i ∧
      (i ≠ r → ∃ s, db.permissions.find? q.parent = some s ∧ s.owner = account)
  active : db.Has account activeName
  acyclic : ∀ i, ¬ Relation.TransGen (Edge db.parentOf) i i

lemma Forest.ancestor_owner (h : Forest db) {r : ℕ}
    (hr : db.permissions.find? r = some p) (hpo : p.owner = account) (hpn : p.name = ownerName)
    (ha : db.accounts.contains account = true) (i : ℕ) (q : PermissionObject) (hq : db.permissions.find? i = some q)
    (ho : q.owner = account) : db.IsAncestor r i := by
  induction i using Nat.strong_induction_on generalizing q with
  | _ i ih =>
    have hi : i ≠ 0 := h.ne_zero hq (by rw [ho]; exact ha)
    by_cases hz : q.parent = 0
    · have hn := (h.root i q hi hq).mp hz
      have he := h.unique i r q p hq hr (ho.trans hpo.symm) (hn.trans hpn.symm)
      rw [he]
      exact Relation.ReflTransGen.refl
    · obtain ⟨hlt, s, hs, hso⟩ := h.parent i q hq hz
      exact Relation.ReflTransGen.head (parentOf_eq_some.mpr ⟨q, hq, rfl, hz⟩) (ih _ hlt s hs (hso.trans ho))

lemma WellRooted.isTree (h : WellRooted db) (ha : db.accounts.contains account = true) :
    db.IsTree account := by
  obtain ⟨⟨r, p, hr, hpo, hpn⟩, hactive⟩ := h.standard account ha
  have hi : r ≠ 0 := h.forest.ne_zero hr (by rw [hpo]; exact ha)
  refine ⟨⟨r, p, hr, hpo, hpn, (h.forest.root r p hi hr).mpr hpn, ?_⟩, hactive, ?_⟩
  · intro i q hq ho
    refine ⟨h.forest.ancestor_owner hr hpo hpn ha i q hq ho, ?_⟩
    intro hne
    have hiz : i ≠ 0 := h.forest.ne_zero hq (by rw [ho]; exact ha)
    have hz : q.parent ≠ 0 := by
      intro hz
      have hn := (h.forest.root i q hiz hq).mp hz
      exact hne (h.forest.unique i r q p hq hr (ho.trans hpo.symm) (hn.trans hpn.symm))
    obtain ⟨-, s, hs, hso⟩ := h.forest.parent i q hq hz
    exact ⟨s, hs, hso.trans ho⟩
  · exact fun i hc => lt_irrefl i (lt_of_transGen h.forest.parentOf_lt hc)

theorem permissions_form_forest {initialKey : PublicKey} {abi : Bytes} {time : ℕ} {start : Db}
    (hg : genesis initialKey abi time = .ok start) (hr : NativeRun rt (fun _ _ => True) start db) :
    (∀ account, db.accounts.contains account = true → db.IsTree account) ∧
      ∀ this other : Permission, db.permissions.find? this.1 = some this.2 →
        db.permissions.find? other.1 = some other.2 → ∀ fuel ≥ db.permissions.size,
          ∃ b, db.satisfiesWithin fuel this other = some b ∧
            (b = true ↔ this.2.owner = other.2.owner ∧ db.IsAncestor this.1 other.1) := by
  have hw := hr.wellRooted (genesis_wellRooted hg)
  constructor
  · intro account ha
    exact hw.isTree ha
  · intro this other ht ho fuel hf
    exact hw.forest.satisfiesWithin ht ho hf

def addingAction (name : PermissionName) : Action :=
  { account := systemAccountName
    name := updateauthName
    authorization := [⟨systemAccountName, activeName⟩]
    data := .updateauth ⟨systemAccountName, name, activeName, Authority.ofKey 8⟩ }

def bareRuntime : Runtime := ⟨⟨fun _ => 0, fun _ => 0⟩, fun _ => 0, fun _ => pure ()⟩

def oneAdded : Result Db := do
  (← genesis 7 [] 0).applyNative bareRuntime {} (addingAction 6712615244595724288)

theorem oneAdded_form_forest : ∃ db, oneAdded = .ok db ∧ db.permissions.size = 10 ∧
    db.IsTree systemAccountName := by
  have hok : oneAdded.map (fun db => (db.permissions.size, db.accounts.contains systemAccountName)) =
      .ok (10, true) := by decide
  obtain ⟨db, hdb, hview⟩ := exists_of_map_ok hok
  obtain ⟨hsize, hc⟩ := Prod.mk.inj hview
  obtain ⟨start, hg, hs⟩ := bind_ok hdb
  exact ⟨db, hdb, hsize, (permissions_form_forest hg (.step _ _ .start trivial hs)).1 _ hc⟩

end Db

end XosChain
