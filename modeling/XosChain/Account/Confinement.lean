import XosChain.Account.Links

namespace XosChain

open Lib Config FlatMap List

namespace Db

variable {db s s' : Db} {rt : Runtime} {ctx : Context} {authorization : List PermissionLevel} {p e : Permission}
  {account : AccountName} {name : PermissionName}

def InScope (db : Db) (p : Permission) (account : AccountName) (name : PermissionName) : Prop :=
  ∃ i q, db.permissions.find? i = some q ∧ q.owner = account ∧ q.name = name ∧ db.IsAncestor p.1 i

structure Confined (db s : Db) (p : Permission) (account : AccountName) : Prop where
  keyed : Keyed s
  next : db.nextPermissionId ≤ s.nextPermissionId
  kept : ∀ i q, db.permissions.find? i = some q → ¬ (q.owner = account ∧ db.IsAncestor p.1 i) →
    s.permissions.find? i = some q
  old : ∀ i q, i < db.nextPermissionId → s.permissions.find? i = some q →
    ∃ q', db.permissions.find? i = some q' ∧ q.parent = q'.parent ∧ q.owner = q'.owner ∧ q.name = q'.name
  new : ∀ i q, db.nextPermissionId ≤ i → s.permissions.find? i = some q → q.owner = account ∧
    (db.InScope p account q.name ∨ ∃ r, s.permissions.find? q.parent = some r ∧ db.InScope p account r.name)
  links : ∀ k, s.links.find? k ≠ db.links.find? k →
    ∃ code type, k = linkKey account code type ∧ db.MayRelink p account code type

structure Declares (db : Db) (p : Permission) (account : AccountName) (name : PermissionName) : Prop where
  keyed : Keyed db
  found : db.getPermission ⟨account, name⟩ = .ok p

lemma Declares.account_ne_zero (h : Declares db p account name) : account ≠ 0 := (getPermission_ok.mp h.found).1

lemma Declares.ne_zero (h : Declares db p account name) : p.1 ≠ 0 := by
  obtain ⟨hz, -, hf⟩ := getPermission_ok.mp h.found
  obtain ⟨hp, ho, -⟩ := findOwned_some hf
  exact h.keyed.ne_zero_of_owner hp (ho ▸ hz)

variable {n : PermissionName} {q : PermissionObject} {type : ActionName} {authorizer code : AccountName}

lemma Declares.row (h : Declares db p account name) (hs : db.SatisfiesNamed p account n) :
    n ≠ 0 ∧ ∃ q, db.findOwned account n = some q ∧ db.IsAncestor p.1 q.1 := by
  obtain ⟨q, hq, hsat⟩ := hs
  obtain ⟨-, hn, hf⟩ := getPermission_ok.mp hq
  exact ⟨hn, q, hf, (h.keyed.satisfies_true h.ne_zero (findOwned_some hf).1 hsat).2⟩

lemma Declares.inScope (h : Declares db p account name) (hs : db.SatisfiesNamed p account n) :
    db.InScope p account n := by
  obtain ⟨-, q, hf, ha⟩ := h.row hs
  obtain ⟨hq, ho, hn⟩ := findOwned_some hf
  exact ⟨q.1, q.2, hq, ho, hn, ha⟩

lemma Confined.refl (h : Keyed db) : Confined db db p account := by
  refine ⟨h, le_rfl, fun _ _ hq _ => hq, fun _ q _ hq => ⟨q, hq, rfl, rfl, rfl⟩, ?_, fun _ hk => absurd rfl hk⟩
  intro i q hi hq
  exact absurd (h.below i q hq) (not_lt.mpr hi)

section

variable (h : Confined db s p account)

include h

lemma Confined.charged {a : AccountName} {ramDelta : ℤ} (hc : Charged s s' a ramDelta) :
    Confined db s' p account := by
  obtain ⟨r, rfl, -⟩ := hc
  exact ⟨⟨h.keyed.reserved, h.keyed.below, h.keyed.unique⟩, h.next, h.kept, h.old, h.new, h.links⟩

lemma Confined.ancestor (hd : Declares db p account name) (hs : db.SatisfiesNamed p account n)
    (he : s.findOwned account n = some e) (hlt : e.1 < db.nextPermissionId) :
    db.IsAncestor p.1 e.1 := by
  obtain ⟨hrow, ho, hn⟩ := findOwned_some he
  obtain ⟨q', hq', -, hqo, hqn⟩ := h.old e.1 e.2 hlt hrow
  obtain ⟨-, q, hf, ha⟩ := hd.row hs
  have hsame := hd.keyed.findOwned hq' (hqo ▸ ho) (hqn ▸ hn)
  rw [hf] at hsame
  rw [Option.some.inj hsame] at ha
  exact ha

lemma Confined.ne_of_kept (hk : Keyed db) {i : ℕ} (hq : db.permissions.find? i = some q)
    (hout : ¬ (q.owner = account ∧ db.IsAncestor p.1 i)) (he : s.permissions.find? e.1 = some e.2)
    (ho : e.2.owner = account) (hin : e.1 < db.nextPermissionId → db.IsAncestor p.1 e.1) : e.1 ≠ i := by
  rintro rfl
  have hrow := h.kept e.1 q hq hout
  obtain rfl := Option.some.inj (he.symm.trans hrow)
  exact hout ⟨ho, hin (hk.below e.1 _ hq)⟩

lemma Confined.modify (hd : Declares db p account name) {auth : Authority} {time : ℕ}
    (he : s.permissions.find? e.1 = some e.2) (ho : e.2.owner = account)
    (hin : e.1 < db.nextPermissionId → db.IsAncestor p.1 e.1) :
    Confined db (s.modifyPermission e auth time) p account := by
  have hz : e.1 ≠ 0 := h.keyed.ne_zero_of_owner he (ho ▸ hd.account_ne_zero)
  refine ⟨h.keyed.modify he hz, h.next, ?_, ?_, ?_, h.links⟩
  · intro i q hq hout
    have hne := h.ne_of_kept hd.keyed hq hout he ho hin
    exact (find?_set_of_ne _ _ hne).trans (h.kept i q hq hout)
  · intro i q hi hq
    obtain ⟨q1, hq1, hp, hqo, hn⟩ := find?_modifyPermission he hq
    obtain ⟨q', hq', hp', ho', hn'⟩ := h.old i q1 hi hq1
    exact ⟨q', hq', hp.trans hp', hqo.trans ho', hn.trans hn'⟩
  · intro i q hi hq
    obtain ⟨q1, hq1, hp, hqo, hn⟩ := find?_modifyPermission he hq
    obtain ⟨hown, hscope⟩ := h.new i q1 hi hq1
    refine ⟨hqo.trans hown, ?_⟩
    rw [hp, hn]
    refine hscope.imp_right ?_
    rintro ⟨r, hr, hrs⟩
    obtain ⟨r', hr', -, -, hrn⟩ := find?_of_modifyPermission he hr
    exact ⟨r', hr', by rw [hrn]; exact hrs⟩

lemma Confined.add (hf : s.findOwned q.owner q.name = none) (ho : q.owner = account)
    (hscope : db.InScope p account q.name ∨ ∃ r, s.permissions.find? q.parent = some r ∧ db.InScope p account r.name) :
    Confined db (s.addPermission q) p account := by
  have hnext : db.nextPermissionId ≤ (s.addPermission q).nextPermissionId := h.next.trans (Nat.le_succ _)
  refine ⟨h.keyed.add hf, hnext, fun i r hr hout => h.keyed.find?_add (h.kept i r hr hout), ?_, ?_, h.links⟩
  · intro i r hi hr
    rcases find?_addPermission hr with ⟨rfl, -⟩ | hr
    · exact absurd hi (not_lt.mpr h.next)
    · exact h.old i r hi hr
  · intro i r hi hr
    rcases find?_addPermission hr with ⟨-, rfl⟩ | hr
    · exact ⟨ho, hscope.imp_right (fun ⟨t, ht, hts⟩ => ⟨t, h.keyed.find?_add ht, hts⟩)⟩
    · obtain ⟨hown, hs⟩ := h.new i r hi hr
      exact ⟨hown, hs.imp_right (fun ⟨t, ht, hts⟩ => ⟨t, h.keyed.find?_add ht, hts⟩)⟩

lemma Confined.erase (hd : Declares db p account name) (he : s.permissions.find? e.1 = some e.2)
    (ho : e.2.owner = account) (hin : e.1 < db.nextPermissionId → db.IsAncestor p.1 e.1)
    (hc : ∀ i q, s.permissions.find? i = some q → q.parent ≠ e.1) :
    Confined db { s with permissions := s.permissions.erase e.1 } p account := by
  have hz : e.1 ≠ 0 := h.keyed.ne_zero_of_owner he (ho ▸ hd.account_ne_zero)
  refine ⟨h.keyed.erase hz, h.next, ?_, ?_, ?_, h.links⟩
  · intro i q hq hout
    have hne := h.ne_of_kept hd.keyed hq hout he ho hin
    exact (find?_erase_of_ne _ hne).trans (h.kept i q hq hout)
  · exact fun i q hi hq => h.old i q hi (find?_erase_some hq).2
  · intro i q hi hq
    obtain ⟨-, hq⟩ := find?_erase_some hq
    obtain ⟨hown, hs⟩ := h.new i q hi hq
    refine ⟨hown, hs.imp_right ?_⟩
    rintro ⟨r, hr, hrs⟩
    exact ⟨r, (find?_erase_of_ne _ (hc i q hq).symm).trans hr, hrs⟩

lemma Confined.setLinks {links : FlatMap LinkKey PermissionName} {code : AccountName}
    (hm : db.MayRelink p account code type)
    (hl : ∀ k, k ≠ linkKey account code type → links.find? k = s.links.find? k) :
    Confined db { s with links } p account := by
  refine ⟨⟨h.keyed.reserved, h.keyed.below, h.keyed.unique⟩, h.next, h.kept, h.old, h.new, ?_⟩
  intro k hk
  by_cases he : k = linkKey account code type
  · exact ⟨code, type, he, hm⟩
  · exact h.links k (by rw [← hl k he]; exact hk)

lemma Confined.updateauth (hd : Declares db p account name) {d : UpdateAuth} (ha : d.account = account)
    (hsat : db.SatisfiesNamed p account d.permission ∨ db.findOwned account d.permission = none ∧ db.SatisfiesNamed p account d.parent)
    (hs : s.applyEosioUpdateauth ctx authorization d = .ok s') : Confined db s' p account := by
  obtain ⟨-, hroot, -, parentId, hid, ⟨e, he, -, hc⟩ | ⟨hf, hc⟩⟩ := applyEosioUpdateauth_ok hs
  · rw [ha] at he
    obtain ⟨hrow, ho, hn⟩ := findOwned_some he
    refine (h.modify hd hrow ho ?_).charged hc
    intro hlt
    rcases hsat with hsat | ⟨hnone, -⟩
    · exact h.ancestor hd hsat he hlt
    · obtain ⟨q', hq', -, hqo, hqn⟩ := h.old e.1 e.2 hlt hrow
      exact absurd ⟨hqo ▸ ho, hqn ▸ hn⟩ (findOwned_none.mp hnone e.1 q' hq')
  · refine (h.add hf ha ?_).charged hc
    rcases hsat with hsat | ⟨-, hsat⟩
    · exact .inl (hd.inScope hsat)
    · obtain ⟨howner, -⟩ | ⟨-, q, hq⟩ := updateauthParent_ok hid
      · exact absurd (hroot howner) (hd.row hsat).1
      · obtain ⟨hrow, -, hn⟩ := findOwned_some hq
        exact .inr ⟨q, hrow, by rw [show q.name = d.parent from hn]; exact hd.inScope hsat⟩

lemma Confined.deleteauth (hd : Declares db p account name) {d : DeleteAuth} (ha : d.account = account)
    (hsat : db.SatisfiesNamed p account d.permission) (hs : s.applyEosioDeleteauth authorization d = .ok s') :
    Confined db s' p account := by
  obtain ⟨-, -, -, -, e, he, hc, hch⟩ := applyEosioDeleteauth_ok hs
  rw [ha] at he
  obtain ⟨hrow, ho, -⟩ := findOwned_some he
  exact (h.erase hd hrow ho (h.ancestor hd hsat he) hc).charged hch

lemma Confined.linkauth {d : LinkAuth} (ha : d.account = account) (hm : db.MayRelink p account d.code d.type)
    (hs : s.applyEosioLinkauth authorization d = .ok s') :
    Confined db s' p account := by
  obtain ⟨-, -, hc⟩ := applyEosioLinkauth_ok hs
  rw [ha] at hc
  exact (h.setLinks hm (fun k hk => find?_set_of_ne _ _ hk.symm)).charged hc

lemma Confined.unlinkauth {d : UnlinkAuth} (ha : d.account = account) (hm : db.MayRelink p account d.code d.type)
    (hs : s.applyEosioUnlinkauth authorization d = .ok s') :
    Confined db s' p account := by
  obtain ⟨-, hc⟩ := applyEosioUnlinkauth_ok hs
  rw [ha] at hc
  exact (h.setLinks hm (fun k hk => find?_erase_of_ne _ hk.symm)).charged hc

end

structure IsAuthAction (act : Action) (account : AccountName) (name : PermissionName) : Prop where
  system : act.account = systemAccountName
  native : act.name ∈ authActions
  declares : act.authorization = [⟨account, name⟩]

lemma Confined.step (h : Confined db s p account) (hd : Declares db p account name) {act : Action}
    (ha : IsAuthAction act account name) {delay : ℕ} {o : Option ℕ} (hc : db.checkSpecial act delay = .ok o)
    (hs : s.applyNative rt ctx act = .ok s') : Confined db s' p account := by
  have hnative := ha.native
  cases applyNative_step hs with
  | newaccount d hn => exact absurd hnative (by rw [hn]; decide)
  | setcode d hn => exact absurd hnative (by rw [hn]; decide)
  | setabi d hn => exact absurd hnative (by rw [hn]; decide)
  | canceldelay d hn => exact absurd hnative (by rw [hn]; decide)
  | other ho =>
    rw [ho]
    exact h
  | updateauth d hn hdata hs =>
    have hcheck := checkSpecial_updateauth hc ha.system hn hdata
    rw [ha.declares] at hcheck
    obtain ⟨hacc, hsat⟩ := checkUpdateauthAuthorization_ok hcheck hd.found
    have hacc : d.account = account := hacc.symm
    rw [hacc] at hsat
    exact h.updateauth hd hacc hsat hs
  | deleteauth d hn hdata hs =>
    have hcheck := checkSpecial_deleteauth hc ha.system hn hdata
    rw [ha.declares] at hcheck
    obtain ⟨hacc, hsat⟩ := checkDeleteauthAuthorization_ok hcheck hd.found
    have hacc : d.account = account := hacc.symm
    rw [hacc] at hsat
    exact h.deleteauth hd hacc hsat hs
  | linkauth d hn hdata hs =>
    have hcheck := checkSpecial_linkauth hc ha.system hn hdata
    rw [ha.declares] at hcheck
    obtain ⟨hacc, hm⟩ := checkLinkauthAuthorization_ok hcheck hd.found
    have hacc : d.account = account := hacc.symm
    rw [hacc] at hm
    exact h.linkauth hacc hm hs
  | unlinkauth d hn hdata hs =>
    have hcheck := checkSpecial_unlinkauth hc ha.system hn hdata
    rw [ha.declares] at hcheck
    obtain ⟨hacc, hm⟩ := checkUnlinkauthAuthorization_ok hcheck hd.found
    have hacc : d.account = account := hacc.symm
    rw [hacc] at hm
    exact h.unlinkauth hacc hm hs

def applyActions (db : Db) (rt : Runtime) (ctx : Context) (actions : List Action) : Result Db :=
  actions.foldlM (fun db act => db.applyNative rt ctx act) db

lemma Confined.run (h : Confined db s p account) (hd : Declares db p account name) {actions : List Action}
    (ha : ∀ act ∈ actions, IsAuthAction act account name)
    (hc : ∀ act ∈ actions, ∃ delay o, db.checkSpecial act delay = .ok o)
    (hs : s.applyActions rt ctx actions = .ok s') : Confined db s' p account := by
  induction actions generalizing s with
  | nil =>
    cases hs
    exact h
  | cons act actions ih =>
    rw [applyActions, foldlM_cons] at hs
    obtain ⟨s1, hs1, hs⟩ := bind_ok hs
    obtain ⟨delay, o, hcheck⟩ := hc act mem_cons_self
    have h1 := h.step hd (ha act mem_cons_self) hcheck hs1
    exact ih h1 (fun a hm => ha a (mem_cons_of_mem _ hm)) (fun a hm => hc a (mem_cons_of_mem _ hm)) hs

lemma Confined.linked (h : Confined db s p account)
    (hne : s.lookupLinkedPermission authorizer code type ≠ db.lookupLinkedPermission authorizer code type) :
    authorizer = account ∧ db.MayRelink p account code type := by
  by_cases hk : s.links.find? (linkKey authorizer code type) = db.links.find? (linkKey authorizer code type)
  · have hnone : db.links.find? (linkKey authorizer code type) = none := by
      cases hf : db.links.find? (linkKey authorizer code type) with
      | none => rfl
      | some l =>
        rw [hf] at hk
        exact absurd (by simp [lookupLinkedPermission, hk, hf]) hne
    -- the pair has no link of its own, so it is the contract's default that changed
    have hall : s.links.find? (linkKey authorizer code 0) ≠ db.links.find? (linkKey authorizer code 0) := by
      intro he
      rw [hnone] at hk
      exact hne (by simp [lookupLinkedPermission, hk, hnone, he])
    obtain ⟨code', type', hkey, hm⟩ := h.links _ hall
    obtain ⟨rfl, rfl, rfl⟩ : authorizer = account ∧ code = code' ∧ 0 = type' := by simpa [linkKey] using hkey
    have hsame : db.lookupLinkedPermission authorizer code type = db.lookupLinkedPermission authorizer code 0 := by
      rw [lookupLinkedPermission, hnone, lookupLinkedPermission]
      cases db.links.find? (linkKey authorizer code 0) <;> rfl
    rw [MayRelink, hsame]
    exact ⟨rfl, hm⟩
  · obtain ⟨code', type', hkey, hm⟩ := h.links _ hk
    obtain ⟨rfl, rfl, rfl⟩ : authorizer = account ∧ code = code' ∧ type = type' := by simpa [linkKey] using hkey
    exact ⟨rfl, hm⟩

lemma Confined.minimum (h : Confined db s p account)
    (hne : s.lookupMinimumPermission authorizer code type ≠ db.lookupMinimumPermission authorizer code type) :
    authorizer = account ∧
      ∀ min, db.lookupMinimumPermission authorizer code type = .ok (some min) → db.SatisfiesNamed p account min := by
  have hlinked : s.lookupLinkedPermission authorizer code type ≠ db.lookupLinkedPermission authorizer code type := by
    intro he
    exact hne (by rw [lookupMinimumPermission, he, lookupMinimumPermission])
  obtain ⟨rfl, hm⟩ := h.linked hlinked
  exact ⟨rfl, fun min hmin => hm min (lookupMinimumPermission_ok hmin).symm⟩

theorem auth_actions_stay_in_subtree {actions : List Action} {keys : List PublicKey}
    {permissions : List PermissionLevel} {delay : ℕ} {allowUnused : Bool} (hd : Declares db p account name)
    (ha : ∀ act ∈ actions, IsAuthAction act account name)
    (hc : db.checkAuthorization ctx actions keys permissions delay allowUnused = .ok ())
    (hs : db.applyActions rt ctx actions = .ok s) :
    (∀ i q, db.permissions.find? i = some q → ¬ (q.owner = account ∧ db.IsAncestor p.1 i) →
        s.permissions.find? i = some q) ∧
      (∀ i q, s.permissions.find? i = some q →
        (∃ q', db.permissions.find? i = some q' ∧ q.parent = q'.parent ∧ q.owner = q'.owner ∧ q.name = q'.name) ∨
          q.owner = account ∧ (db.InScope p account q.name ∨
            ∃ r, s.permissions.find? q.parent = some r ∧ db.InScope p account r.name)) ∧
      ∀ authorizer code type,
        s.lookupMinimumPermission authorizer code type ≠ db.lookupMinimumPermission authorizer code type →
          authorizer = account ∧ ∀ min, db.lookupMinimumPermission authorizer code type = .ok (some min) →
            db.SatisfiesNamed p account min := by
  have h : Confined db s p account :=
    (Confined.refl hd.keyed).run hd ha (fun act hact => checkAuthorization_special hc hact) hs
  refine ⟨h.kept, ?_, fun authorizer code type hne => h.minimum hne⟩
  intro i q hq
  rcases lt_or_ge i db.nextPermissionId with hi | hi
  · exact .inl (h.old i q hi hq)
  · exact .inr (h.new i q hi hq)

lemma isAuthAction_linkingAction (requirement : PermissionName) :
    IsAuthAction (linkingAction requirement) systemAccountName activeName :=
  ⟨rfl, by simp [linkingAction, authActions], rfl⟩

def systemActive : Permission := (2, ⟨1, systemAccountName, activeName, 0, .ofKey 7⟩)

lemma genesis_systemActive {start : Db} (hg : genesis 7 [] 0 = .ok start) :
    Declares start systemActive systemAccountName activeName := by
  have hp : (genesis 7 [] 0).map (fun db => db.getPermission ⟨systemAccountName, activeName⟩) =
      .ok (.ok systemActive) := by decide
  rw [hg] at hp
  exact ⟨(genesis_wellRooted hg).forest.toKeyed, Except.ok.inj hp⟩

def fooMinimum (db : Db) : Result (Option PermissionName) :=
  db.lookupMinimumPermission systemAccountName systemAccountName fooName

def systemOwner (db : Db) : Result Permission := db.getPermission ⟨systemAccountName, ownerName⟩

lemma ownerLinked : ∃ start db, genesis 7 [] 0 = .ok start ∧
    start.checkAuthorization {} [linkingAction ownerName] [7] [] 0 false = .ok () ∧
    start.applyActions bareRuntime {} [linkingAction ownerName] = .ok db ∧
    start.fooMinimum = .ok (some activeName) ∧ db.fooMinimum = .ok (some ownerName) ∧
    ∃ owner, db.systemOwner = .ok owner ∧ db.satisfies systemActive owner = some false := by
  have hok : (genesis 7 [] 0).map (fun start =>
      (start.checkAuthorization {} [linkingAction ownerName] [7] [] 0 false, start.fooMinimum)) =
      .ok (.ok (), .ok (some activeName)) := by decide +kernel
  have hdb : (oneLinked ownerName).map (fun db =>
      (db.fooMinimum, db.systemOwner.map (db.satisfies systemActive))) =
      .ok (.ok (some ownerName), .ok (some false)) := by decide +kernel
  obtain ⟨db, hlinked, hview⟩ := exists_of_map_ok hdb
  obtain ⟨start, hg, hs⟩ := bind_ok hlinked
  rw [hg] at hok
  obtain ⟨hcheck, hbefore⟩ := Prod.mk.inj (Except.ok.inj hok)
  obtain ⟨hafter, howner⟩ := Prod.mk.inj hview
  obtain ⟨owner, ho, hsat⟩ := exists_of_map_ok howner
  have hrun : start.applyActions bareRuntime {} [linkingAction ownerName] = .ok db := by
    rw [applyActions, foldlM_cons]
    exact result_bind.mpr ⟨db, hs, rfl⟩
  exact ⟨start, db, hg, hcheck, hrun, hbefore, hafter, owner, ho, hsat⟩

def rekeyAndDelete : List Action :=
  [{ addingAction activeName with data := .updateauth ⟨systemAccountName, activeName, ownerName, .ofKey 9⟩ },
    { addingAction activeName with
      name := deleteauthName
      data := .deleteauth ⟨systemAccountName, 6712615244595724288⟩ }]

theorem rekeyAndDelete_stays_in_subtree : ∃ start db, oneAdded = .ok start ∧
    start.applyActions bareRuntime {} rekeyAndDelete = .ok db ∧ db.permissions.size = 9 ∧
    (db.getPermission ⟨systemAccountName, activeName⟩).map (·.2.auth) = .ok (.ofKey 9) ∧
    ∀ i q, start.permissions.find? i = some q →
      ¬ (q.owner = systemAccountName ∧ start.IsAncestor systemActive.1 i) → db.permissions.find? i = some q := by
  have hok : (oneAdded >>= fun start => (start.applyActions bareRuntime {} rekeyAndDelete).map fun db =>
      (start.getPermission ⟨systemAccountName, activeName⟩,
        start.checkAuthorization {} rekeyAndDelete [7] [] 0 false, db.permissions.size,
        (db.getPermission ⟨systemAccountName, activeName⟩).map (·.2.auth))) =
      .ok (.ok systemActive, .ok (), 9, .ok (.ofKey 9)) := by decide +kernel
  obtain ⟨start, hstart, hok⟩ := bind_ok hok
  obtain ⟨db, hs, hview⟩ := exists_of_map_ok hok
  simp only [Prod.mk.injEq] at hview
  obtain ⟨hfound, hc, hsize, hauth⟩ := hview
  obtain ⟨first, hg, hadded⟩ := bind_ok hstart
  have hd : Declares start systemActive systemAccountName activeName :=
    ⟨(applyNative_wellRooted (genesis_wellRooted hg) hadded).forest.toKeyed, hfound⟩
  have ha : ∀ act ∈ rekeyAndDelete, IsAuthAction act systemAccountName activeName := by
    simp only [rekeyAndDelete, forall_mem_cons]
    refine ⟨⟨rfl, ?_, rfl⟩, ⟨rfl, ?_, rfl⟩, nofun⟩ <;> simp [authActions, addingAction]
  exact ⟨start, db, hstart, hs, hsize, hauth, (auth_actions_stay_in_subtree hd ha hc hs).1⟩

theorem ownerLinked_minimum_above_declared : ∃ start db owner, genesis 7 [] 0 = .ok start ∧
    start.getPermission ⟨systemAccountName, activeName⟩ = .ok systemActive ∧
    IsAuthAction (linkingAction ownerName) systemAccountName activeName ∧
    start.checkAuthorization {} [linkingAction ownerName] [7] [] 0 false = .ok () ∧
    start.applyActions bareRuntime {} [linkingAction ownerName] = .ok db ∧
    start.fooMinimum = .ok (some activeName) ∧ db.fooMinimum = .ok (some ownerName) ∧
    db.systemOwner = .ok owner ∧ db.satisfies systemActive owner = some false := by
  obtain ⟨start, db, hg, hc, hs, hbefore, hafter, owner, ho, hsat⟩ := ownerLinked
  exact ⟨start, db, owner, hg, (genesis_systemActive hg).found, isAuthAction_linkingAction _, hc, hs, hbefore, hafter,
    ho, hsat⟩

end Db

end XosChain
