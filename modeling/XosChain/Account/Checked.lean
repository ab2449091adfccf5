import XosChain.Account.Satisfies

namespace XosChain

open Lib Config

lemma foldlM_split {α σ : Type} {f : σ → α → Result σ} {l : List α} {s t : σ} (h : l.foldlM f s = .ok t) {a : α}
    (ha : a ∈ l) : ∃ s' t', ∃ later : List α, f s' a = .ok t' ∧ later.foldlM f t' = .ok t := by
  obtain ⟨before, later, rfl⟩ := List.append_of_mem ha
  rw [List.foldlM_append] at h
  obtain ⟨s', -, h⟩ := bind_ok h
  rw [List.foldlM_cons] at h
  obtain ⟨t', ht, h⟩ := bind_ok h
  exact ⟨s', t', later, ht, h⟩

lemma foldlM_mem {α σ : Type} {f : σ → α → Result σ} {l : List α} {s t : σ} (h : l.foldlM f s = .ok t) {a : α}
    (ha : a ∈ l) : ∃ s' t', f s' a = .ok t' := by
  obtain ⟨s', t', -, ht, -⟩ := foldlM_split h ha
  exact ⟨s', t', ht⟩

namespace Db

variable {db : Db} {account : AccountName} {name : PermissionName} {p : Permission}

lemma climb_true {id : ℕ} (hid : id ≠ 0) {fuel i : ℕ} (h : db.climb id fuel i = some true) :
    Relation.TransGen (Edge db.parentOf) i id := by
  induction fuel generalizing i with
  | zero => cases h
  | succ fuel ih =>
    rw [climb] at h
    cases hq : db.permissions.find? i with
    | none =>
      rw [hq] at h
      cases h
    | some q =>
      simp only [hq] at h
      split_ifs at h with he hz
      · exact .single (parentOf_eq_some.mpr ⟨q, hq, he.symm, hid⟩)
      · cases h
      · exact .head (parentOf_eq_some.mpr ⟨q, hq, rfl, hz⟩) (ih h)

lemma Keyed.satisfies_true (hk : Keyed db) {other : Permission} (hid : p.1 ≠ 0)
    (ho : db.permissions.find? other.1 = some other.2) (h : db.satisfies p other = some true) :
    p.2.owner = other.2.owner ∧ db.IsAncestor p.1 other.1 := by
  rw [satisfies, satisfiesWithin] at h
  split_ifs at h with howner hnear
  · cases h
  · refine ⟨not_not.mp howner, ?_⟩
    rcases hnear with he | hp
    · rw [he]
      exact Relation.ReflTransGen.refl
    · exact .single (parentOf_eq_some.mpr ⟨other.2, ho, hp.symm, hid⟩)
  · refine ⟨not_not.mp howner, ?_⟩
    have hc := climb_true hid h
    have hz : other.2.parent ≠ 0 := by
      intro hz
      have hn : db.parentOf other.2.parent = none := by simp [parentOf, hz, hk.reserved]
      exact not_transGen_of_none hn hc
    exact .head (parentOf_eq_some.mpr ⟨other.2, ho, rfl, hz⟩) hc.to_reflTransGen

def SatisfiesNamed (db : Db) (p : Permission) (account : AccountName) (name : PermissionName) : Prop :=
  ∃ min, db.getPermission ⟨account, name⟩ = .ok min ∧ db.satisfies p min = some true

def minimumOf (linked : Option PermissionName) : Option PermissionName :=
  match linked with
  | none => some activeName
  | some l => if l = eosioAnyName then none else some l

lemma lookupMinimumPermission_ok {scope : AccountName} {act : ActionName} {o : Option PermissionName}
    (h : db.lookupMinimumPermission account scope act = .ok o) :
    o = minimumOf (db.lookupLinkedPermission account scope act) := by
  obtain ⟨-, h⟩ := eosAssert_ok h
  cases hl : db.lookupLinkedPermission account scope act with
  | none =>
    rw [hl] at h
    exact (Except.ok.inj h).symm
  | some l =>
    rw [hl] at h
    exact (Except.ok.inj h).symm

variable {what : String} {auth : PermissionLevel} {u : Unit}

lemma singleAuth_bind {next : PermissionLevel → Result Unit} (h : singleAuth [auth] what >>= next = .ok u) :
    next auth = .ok u := h

lemma requireSatisfies_ok {min : Permission} (h : db.requireSatisfies auth min what = .ok u)
    (hp : db.getPermission auth = .ok p) : db.satisfies p min = some true := by
  obtain ⟨p', hp', h⟩ := bind_ok h
  obtain rfl := Except.ok.inj (hp.symm.trans hp')
  cases hs : db.satisfies p min with
  | none =>
    rw [hs] at h
    cases h
  | some b =>
    rw [hs] at h
    have hb : b = true := eosAssert_eq_ok.mp h
    rw [hb]

lemma requireLinked_ok {linked : Option PermissionName}
    (h : db.requireLinked auth account linked what = .ok u) (hp : db.getPermission auth = .ok p) :
    ∀ l, linked = some l → db.SatisfiesNamed p account l := by
  rintro l rfl
  obtain ⟨min, hmin, h⟩ := bind_ok h
  exact ⟨min, hmin, requireSatisfies_ok h hp⟩

section

variable {auth : PermissionLevel} {u : Unit}

lemma checkUpdateauthAuthorization_ok {d : UpdateAuth}
    (h : db.checkUpdateauthAuthorization d [auth] = .ok u) (hp : db.getPermission auth = .ok p) :
    auth.actor = d.account ∧
      (db.SatisfiesNamed p d.account d.permission ∨
        db.findOwned d.account d.permission = none ∧ db.SatisfiesNamed p d.account d.parent) := by
  obtain ⟨he, h⟩ := eosAssert_ok (singleAuth_bind h)
  obtain ⟨min, hmin, h⟩ := bind_ok h
  have hs := requireSatisfies_ok h hp
  refine ⟨he, ?_⟩
  obtain ⟨o, ho, hmin⟩ := bind_ok hmin
  obtain ⟨haz, hnz, hf⟩ := findPermission_ok ho
  cases o with
  | some q =>
    obtain rfl := Except.ok.inj hmin
    exact .inl ⟨q, getPermission_ok.mpr ⟨haz, hnz, hf⟩, hs⟩
  | none => exact .inr ⟨hf, min, hmin, hs⟩

lemma checkDeleteauthAuthorization_ok {d : DeleteAuth}
    (h : db.checkDeleteauthAuthorization d [auth] = .ok u) (hp : db.getPermission auth = .ok p) :
    auth.actor = d.account ∧ db.SatisfiesNamed p d.account d.permission := by
  obtain ⟨he, h⟩ := eosAssert_ok (singleAuth_bind h)
  obtain ⟨min, hmin, h⟩ := bind_ok h
  exact ⟨he, min, hmin, requireSatisfies_ok h hp⟩

def MayRelink (db : Db) (p : Permission) (account code : AccountName) (type : ActionName) : Prop :=
  ∀ l, minimumOf (db.lookupLinkedPermission account code type) = some l → db.SatisfiesNamed p account l

lemma checkLinkauthAuthorization_ok {d : LinkAuth} (h : db.checkLinkauthAuthorization d [auth] = .ok u)
    (hp : db.getPermission auth = .ok p) :
    auth.actor = d.account ∧ db.MayRelink p d.account d.code d.type := by
  obtain ⟨he, h⟩ := eosAssert_ok (singleAuth_bind h)
  iterate 5 obtain ⟨-, h⟩ := eosAssert_ok h
  obtain ⟨linked, hl, h⟩ := bind_ok h
  refine ⟨he, ?_⟩
  rw [MayRelink, ← lookupMinimumPermission_ok hl]
  exact requireLinked_ok h hp

lemma checkUnlinkauthAuthorization_ok {d : UnlinkAuth} (h : db.checkUnlinkauthAuthorization d [auth] = .ok u)
    (hp : db.getPermission auth = .ok p) :
    auth.actor = d.account ∧ db.MayRelink p d.account d.code d.type := by
  obtain ⟨he, h⟩ := eosAssert_ok (singleAuth_bind h)
  refine ⟨he, ?_⟩
  rw [MayRelink]
  cases hl : db.lookupLinkedPermission d.account d.code d.type with
  | none =>
    rw [hl] at h
    cases h
  | some l =>
    rw [hl] at h
    exact requireLinked_ok h hp

end

def authActions : List ActionName :=
  [updateauthName, deleteauthName, linkauthName, unlinkauthName]

lemma checkAuthorization_special {ctx : Context} {actions : List Action} {keys : List PublicKey}
    {permissions : List PermissionLevel} {delay : ℕ} {allowUnused : Bool}
    (h : db.checkAuthorization ctx actions keys permissions delay allowUnused = .ok u) {act : Action}
    (ha : act ∈ actions) : ∃ d o, db.checkSpecial act d = .ok o := by
  obtain ⟨m, hm, -⟩ := bind_ok h
  obtain ⟨s, t, hst⟩ := foldlM_mem hm ha
  obtain ⟨special, hs, -⟩ := bind_ok hst
  exact ⟨_, special, hs⟩

section

variable {act : Action} {delay : ℕ} {o : Option ℕ} {auth : PermissionLevel}

lemma checked_of_special {δ : Type} {d : δ} {check : δ → Result Unit}
    (h : (do check (← .ok d); pure (some delay) : Result (Option ℕ)) = .ok o) : check d = .ok () := by
  obtain ⟨d', hd', h⟩ := bind_ok h
  cases hd'
  obtain ⟨u, hu, -⟩ := bind_ok h
  exact hu

section

variable (h : db.checkSpecial act delay = .ok o) (hs : act.account = systemAccountName)

include h hs

lemma checkSpecial_updateauth (hn : act.name = updateauthName) {d : UpdateAuth} (hd : act.asUpdateauth = .ok d) :
    db.checkUpdateauthAuthorization d act.authorization = .ok () := by
  rw [checkSpecial, if_neg (not_not.mpr hs), if_pos hn, hd] at h
  exact checked_of_special h

lemma checkSpecial_deleteauth (hn : act.name = deleteauthName) {d : DeleteAuth} (hd : act.asDeleteauth = .ok d) :
    db.checkDeleteauthAuthorization d act.authorization = .ok () := by
  rw [checkSpecial, if_neg (not_not.mpr hs), hn, if_neg (by decide), if_pos rfl, hd] at h
  exact checked_of_special h

lemma checkSpecial_linkauth (hn : act.name = linkauthName) {d : LinkAuth} (hd : act.asLinkauth = .ok d) :
    db.checkLinkauthAuthorization d act.authorization = .ok () := by
  rw [checkSpecial, if_neg (not_not.mpr hs), hn, if_neg (by decide), if_neg (by decide), if_pos rfl, hd] at h
  exact checked_of_special h

lemma checkSpecial_unlinkauth (hn : act.name = unlinkauthName) {d : UnlinkAuth} (hd : act.asUnlinkauth = .ok d) :
    db.checkUnlinkauthAuthorization d act.authorization = .ok () := by
  rw [checkSpecial, if_neg (not_not.mpr hs), hn, if_neg (by decide), if_neg (by decide), if_neg (by decide),
    if_pos rfl, hd] at h
  exact checked_of_special h

end

end

end Db

end XosChain
