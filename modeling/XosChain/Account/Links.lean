import XosChain.Account.Checked

namespace XosChain

open Lib Config FlatMap

namespace Db

variable {db db' : Db} {rt : Runtime} {ctx : Context} {authorization : List PermissionLevel}

structure Linked (db : Db) : Prop where
  account : ∀ k required, db.links.find? k = some required → db.accounts.contains (ofLex k).1 = true
  target : ∀ k required, db.links.find? k = some required →
    required = eosioAnyName ∨ db.Has (ofLex k).1 required

def LinksToOwn (db : Db) (act : Action) : Prop :=
  ∀ d, act.name = linkauthName → act.asLinkauth = .ok d →
    d.requirement = eosioAnyName ∨ db.Has d.account d.requirement

lemma Linked.of_same (h : Linked db) (hl : db'.links = db.links)
    (ha : ∀ a, db.accounts.contains a = true → db'.accounts.contains a = true)
    (hp : ∀ a n, n ≠ eosioAnyName → (∃ k, (ofLex k).1 = a ∧ db.links.find? k = some n) → db.Has a n →
      db'.Has a n) :
    Linked db' := by
  constructor
  · intro k required hk
    rw [hl] at hk
    exact ha _ (h.account k required hk)
  · intro k required hk
    rw [hl] at hk
    by_cases hany : required = eosioAnyName
    · exact .inl hany
    · exact .inr (hp _ _ hany ⟨k, rfl, hk⟩ ((h.target k required hk).resolve_left hany))

variable {account : AccountName} {owner active : Authority} {time : ℕ} {name : PermissionName}

section

variable (h : Linked db)

include h

lemma Linked.charged {ramDelta : ℤ} (hc : Charged db db' account ramDelta) :
    Linked db' := by
  obtain ⟨r, rfl, -⟩ := hc
  exact ⟨h.account, h.target⟩

lemma Linked.setAccount (a : AccountObject) :
    Linked { db with accounts := db.accounts.set account a } :=
  h.of_same rfl (fun b hb => (contains_set_new a b).mpr (.inr hb)) (fun _ _ _ _ hn => hn)

lemma Linked.add (hf : Forest db) (p : PermissionObject) : Linked (db.addPermission p) :=
  h.of_same rfl (fun _ hb => hb) (fun _ _ _ _ hn => hf.has_add hn)

lemma applyEosioNewaccount_linked (hw : WellRooted db) {create : NewAccount}
    (hs : db.applyEosioNewaccount ctx authorization create = .ok db') : Linked db' := by
  obtain ⟨hz, hn, -, hc⟩ := applyEosioNewaccount_ok hs
  have hown := (h.setAccount {}).add (hw.forest.addAccount {} hz)
    (ownerPermission create.name create.owner ctx.pendingBlockTime)
  exact (hown.add (hw.forest.addOwner {} hz hn) _).charged hc

lemma applyEosioUpdateauth_linked (hw : WellRooted db) {update : UpdateAuth}
    (hs : db.applyEosioUpdateauth ctx authorization update = .ok db') : Linked db' := by
  obtain ⟨-, -, -, parentId, -, ⟨p, hp, -, hc⟩ | ⟨-, hc⟩⟩ := applyEosioUpdateauth_ok hs
  · obtain ⟨hf, -, -⟩ := findOwned_some hp
    have hm : Linked (db.modifyPermission p update.auth ctx.pendingBlockTime) :=
      h.of_same rfl (fun _ hb => hb) (fun _ _ _ _ hn => hn.modify hf)
    exact hm.charged hc
  · exact (h.add hw.forest _).charged hc

lemma applyEosioDeleteauth_linked {remove : DeleteAuth} (hs : db.applyEosioDeleteauth authorization remove = .ok db') :
    Linked db' := by
  obtain ⟨-, -, hl, -, p, hp, -, hc⟩ := applyEosioDeleteauth_ok hs
  obtain ⟨hf, ho, hn⟩ := findOwned_some hp
  have he : Linked { db with permissions := db.permissions.erase p.1 } := by
    refine h.of_same rfl (fun _ hb => hb) ?_
    rintro a n - ⟨k, rfl, hk⟩ hh
    refine hh.erase hf ?_
    intro hoa hna
    have hm := (db.links.find?_eq_some_iff k n).mp hk
    exact hl _ hm (hoa.symm.trans ho) (hna.symm.trans hn)
  exact he.charged hc

lemma applyEosioLinkauth_linked {link : LinkAuth}
    (hown : link.requirement = eosioAnyName ∨ db.Has link.account link.requirement)
    (hs : db.applyEosioLinkauth authorization link = .ok db') : Linked db' := by
  obtain ⟨-, ha, hc⟩ := applyEosioLinkauth_ok hs
  refine Linked.charged ⟨?_, ?_⟩ hc
  · exact forall_set h.account ha
  · exact forall_set h.target hown

lemma applyEosioUnlinkauth_linked {unlink : UnlinkAuth} (hs : db.applyEosioUnlinkauth authorization unlink = .ok db') :
    Linked db' := by
  obtain ⟨-, hc⟩ := applyEosioUnlinkauth_ok hs
  obtain ⟨r, rfl, -⟩ := hc
  exact ⟨forall_erase h.account, forall_erase h.target⟩

lemma applyNative_linked (hw : WellRooted db) {act : Action} (hown : LinksToOwn db act)
    (hs : db.applyNative rt ctx act = .ok db') : Linked db' := by
  cases applyNative_step hs with
  | newaccount d _ _ hd => exact applyEosioNewaccount_linked h hw hd
  | setcode d _ _ hd =>
    obtain ⟨a, version, -, hc⟩ := applyEosioSetcode_ok hd
    exact (h.setAccount _).charged hc
  | setabi d _ _ hd =>
    obtain ⟨a, -, hc⟩ := applyEosioSetabi_ok hd
    exact (h.setAccount _).charged hc
  | updateauth d _ _ hd => exact applyEosioUpdateauth_linked h hw hd
  | deleteauth d _ _ hd => exact applyEosioDeleteauth_linked h hd
  | linkauth d hn hdata hd => exact applyEosioLinkauth_linked h (hown d hn hdata) hd
  | unlinkauth d _ _ hd => exact applyEosioUnlinkauth_linked h hd
  | canceldelay d _ _ hd =>
    obtain ⟨-, rfl⟩ | ⟨g, -, r, rfl, -⟩ := cancelDeferredTransaction_ok (applyEosioCanceldelay_ok hd)
    · exact h
    · exact ⟨h.account, h.target⟩
  | other hd =>
    rw [hd]
    exact h

end

lemma genesis_linked {initialKey : PublicKey} {abi : Bytes} (h : genesis initialKey abi time = .ok db) :
    Linked db := by
  obtain ⟨accounts, permissions, n, resources, rfl⟩ := genesis_frame h
  exact ⟨fun _ _ hr => (by cases hr), fun _ _ hr => (by cases hr)⟩

lemma NativeRun.linked {start : Db} (h : NativeRun rt LinksToOwn start db) (hw : WellRooted start)
    (hs : Linked start) : Linked db := by
  induction h with
  | start => exact hs
  | step ctx act hr ha hstep ih => exact applyNative_linked ih (hr.wellRooted hw) ha hstep

lemma WellRooted.getPermission (hw : WellRooted db)
    (ha : db.accounts.contains account = true) (h : db.Has account name) : ∃ p, db.getPermission ⟨account, name⟩ = .ok p := by
  obtain ⟨i, p, hp, rfl, rfl⟩ := h
  have hi := hw.forest.ne_zero hp ha
  have hz : p.owner ≠ 0 := by
    intro hz
    rw [hz, hw.forest.named] at ha
    cases ha
  exact ⟨(i, p), getPermission_ok.mpr ⟨hz, (hw.forest.owned i p hi hp).2, hw.forest.findOwned hp rfl rfl⟩⟩

lemma Linked.lookup (h : Linked db) {account scope : AccountName} {act : ActionName}
    (hl : db.lookupLinkedPermission account scope act = some name) :
    db.accounts.contains account = true ∧ (name = eosioAnyName ∨ db.Has account name) := by
  rw [lookupLinkedPermission] at hl
  cases hf : db.links.find? (linkKey account scope act) with
  | some required =>
    rw [hf] at hl
    cases hl
    exact ⟨h.account _ _ hf, h.target _ _ hf⟩
  | none =>
    rw [hf] at hl
    exact ⟨h.account _ _ hl, h.target _ _ hl⟩

lemma minimumOf_eq_some {linked : Option PermissionName} (h : minimumOf linked = some name) :
    (linked = none ∧ name = activeName) ∨ (linked = some name ∧ name ≠ eosioAnyName) := by
  cases linked with
  | none => exact .inl ⟨rfl, (Option.some.inj h).symm⟩
  | some l =>
    rw [minimumOf] at h
    split_ifs at h with hany
    cases h
    exact .inr ⟨rfl, hany⟩

theorem links_lead_to_own_permissions {initialKey : PublicKey} {abi : Bytes} {time : ℕ} {start : Db}
    (hg : genesis initialKey abi time = .ok start) (hr : NativeRun rt LinksToOwn start db) :
    (∀ account code type required, db.links.find? (linkKey account code type) = some required →
        required = eosioAnyName ∨ db.Has account required) ∧
      ∀ account scope act name, db.accounts.contains account = true →
        db.lookupMinimumPermission account scope act = .ok (some name) →
          ∃ p, db.getPermission ⟨account, name⟩ = .ok p := by
  have hw := hr.wellRooted (genesis_wellRooted hg)
  have hl := hr.linked (genesis_wellRooted hg) (genesis_linked hg)
  constructor
  · intro account code type required hk
    exact hl.target _ required hk
  · intro account scope act name ha hm
    rcases minimumOf_eq_some (lookupMinimumPermission_ok hm).symm with ⟨-, rfl⟩ | ⟨hf, hany⟩
    · exact hw.getPermission ha (hw.standard account ha).2
    · exact hw.getPermission ha ((hl.lookup hf).2.resolve_left hany)

def fooName : ActionName := 6712615244595724288

def linkingAction (requirement : PermissionName) : Action :=
  { account := systemAccountName
    name := linkauthName
    authorization := [⟨systemAccountName, activeName⟩]
    data := .linkauth ⟨systemAccountName, systemAccountName, fooName, requirement⟩ }

def oneLinked (requirement : PermissionName) : Result Db := do
  (← genesis 7 [] 0).applyNative bareRuntime {} (linkingAction requirement)

def fooLink (db : Db) : Option PermissionName :=
  db.links.find? (linkKey systemAccountName systemAccountName fooName)

theorem activeLinked_leads_to_own : ∃ db, oneLinked activeName = .ok db ∧ db.fooLink = some activeName ∧
    db.Has systemAccountName activeName := by
  have hok : (oneLinked activeName).map fooLink = .ok (some activeName) := by decide
  have hsys : (genesis 7 [] 0).map (fun db => db.accounts.contains systemAccountName) = .ok true := by decide
  obtain ⟨db, hdb, hfoo⟩ := exists_of_map_ok hok
  obtain ⟨start, hg, hs⟩ := bind_ok hdb
  rw [hg] at hsys
  have hown : LinksToOwn start (linkingAction activeName) := by
    intro d _ hd
    cases hd
    exact .inr ((genesis_wellRooted hg).standard _ (Except.ok.inj hsys)).2
  have hlinks := (links_lead_to_own_permissions hg (.step _ _ .start hown hs)).1 _ _ _ _ hfoo
  exact ⟨db, hdb, hfoo, hlinks.resolve_left (by decide)⟩

def fooAction : Action :=
  { account := systemAccountName
    name := fooName
    authorization := [⟨systemAccountName, activeName⟩]
    data := .bytes [] }

def createFoo : Action :=
  { account := systemAccountName
    name := newaccountName
    authorization := [⟨systemAccountName, activeName⟩]
    data := .newaccount
      { creator := systemAccountName
        name := fooName
        owner := .ofKey 1
        active := activeProducersAuthority } }

theorem majorityLinked_dangles : ∃ start db, genesis 7 [] 0 = .ok start ∧
    start.checkAuthorization {} [linkingAction majorityProducersPermissionName] [7] [] 0 false = .ok () ∧
    start.applyNative bareRuntime {} (linkingAction majorityProducersPermissionName) = .ok db ∧
    db.fooLink = some majorityProducersPermissionName ∧
    majorityProducersPermissionName ≠ eosioAnyName ∧
    ¬ db.Has systemAccountName majorityProducersPermissionName ∧
    start.checkAuthorization {} [fooAction] [7] [] 0 false = .ok () ∧
    db.checkAuthorization {} [fooAction] [7] [] 0 false =
      .error ⟨.permissionQueryException, "Failed to retrieve permission"⟩ := by
  have hok : (genesis 7 [] 0).map (fun start =>
      (start.checkAuthorization {} [linkingAction majorityProducersPermissionName] [7] [] 0 false,
        start.checkAuthorization {} [fooAction] [7] [] 0 false)) = .ok (.ok (), .ok ()) := by decide +kernel
  have hdb : (oneLinked majorityProducersPermissionName).map (fun db =>
      (db.fooLink, (db.findOwned systemAccountName majorityProducersPermissionName).isSome,
        db.checkAuthorization {} [fooAction] [7] [] 0 false)) =
      .ok (some majorityProducersPermissionName, false,
        .error ⟨.permissionQueryException, "Failed to retrieve permission"⟩) := by decide +kernel
  obtain ⟨db, hlinked, hview⟩ := exists_of_map_ok hdb
  obtain ⟨start, hg, hs⟩ := bind_ok hlinked
  rw [hg] at hok
  obtain ⟨hcheck, hfoo⟩ := Prod.mk.inj (Except.ok.inj hok)
  obtain ⟨hlink, hview⟩ := Prod.mk.inj hview
  obtain ⟨hnone, hthrows⟩ := Prod.mk.inj hview
  exact ⟨start, db, hg, hcheck, hs, hlink, by decide, by simp [has_iff, hnone], hfoo, hthrows⟩

end Db

end XosChain
