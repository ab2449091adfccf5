import XosChain.Account.Native

namespace XosChain

open Lib ResourceLimits Config FlatMap

def Charged (db db' : Db) (account : AccountName) (ramDelta : ℤ) : Prop :=
  ∃ r : ResourceLimits.Db, db' = { db with resources := r } ∧
    ∀ b, r.ramUsage b = db.resources.ramUsage b + if b = account then ramDelta else 0

namespace Db

variable {db db' : Db} {ctx : Context} {authorization : List PermissionLevel} {account owner : AccountName}
  {name : PermissionName} {ramDelta : ℤ} {e : Permission} {level : PermissionLevel} {update : UpdateAuth}
  {rt : Runtime}

lemma addRamUsage_charged (h : db.addRamUsage account ramDelta = .ok db') : Charged db db' account ramDelta := by
  obtain ⟨r, hr, h⟩ := bind_ok h
  cases h
  exact ⟨r, rfl, addPendingRamUsage_ok hr⟩

lemma charged_zero (db : Db) (account : AccountName) : Charged db db account 0 := ⟨db.resources, rfl, by simp⟩

lemma findOwned_some (h : db.findOwned owner name = some e) :
    db.permissions.find? e.1 = some e.2 ∧ e.2.owner = owner ∧ e.2.name = name := by
  have hm := List.mem_of_find?_eq_some h
  have hp := List.find?_some h
  simp only [decide_eq_true_eq] at hp
  exact ⟨(db.permissions.find?_eq_some_iff e.1 e.2).mpr hm, hp⟩

lemma findOwned_none :
    db.findOwned owner name = none ↔ ∀ i p, db.permissions.find? i = some p → ¬ (p.owner = owner ∧ p.name = name) := by
  simp only [findOwned, List.find?_eq_none, decide_eq_true_eq, find?_eq_some_iff, Prod.forall]

lemma findPermission_ok {o : Option Permission} (h : db.findPermission level = .ok o) :
    level.actor ≠ 0 ∧ level.permission ≠ 0 ∧ db.findOwned level.actor level.permission = o := by
  obtain ⟨⟨ha, hn⟩, h⟩ := eosAssert_ok h
  cases h
  exact ⟨ha, hn, rfl⟩

lemma getPermission_ok :
    db.getPermission level = .ok e ↔
      level.actor ≠ 0 ∧ level.permission ≠ 0 ∧ db.findOwned level.actor level.permission = some e := by
  constructor
  · intro h
    obtain ⟨o, ho, h⟩ := bind_ok h
    obtain ⟨ha, hn, hf⟩ := findPermission_ok ho
    cases o with
    | none => cases h
    | some p =>
      cases h
      exact ⟨ha, hn, hf⟩
  · rintro ⟨ha, hn, hf⟩
    simp [getPermission, findPermission, eosAssert, ha, hn, hf, bind, Except.bind, pure, Except.pure]

def addPermission (db : Db) (p : PermissionObject) : Db :=
  { db with
    permissions := db.permissions.set db.nextPermissionId p
    nextPermissionId := db.nextPermissionId + 1 }

lemma createPermission_ok {parent : ℕ} {auth : Authority} {time : ℕ} {r : ℕ × Db}
    (h : db.createPermission account name parent auth time = .ok r) :
    db.findOwned account name = none ∧ r = (db.nextPermissionId,
      db.addPermission { parent, owner := account, name, lastUpdated := time, auth }) := by
  rw [createPermission] at h
  split_ifs at h with hf
  cases h
  exact ⟨by simpa using hf, rfl⟩

lemma removePermission_ok (h : db.removePermission e = .ok db') :
    (∀ i p, db.permissions.find? i = some p → p.parent ≠ e.1) ∧
      db' = { db with permissions := db.permissions.erase e.1 } := by
  obtain ⟨hc, h⟩ := eosAssert_ok h
  cases h
  exact ⟨fun i p hp => hc (i, p) ((db.permissions.find?_eq_some_iff i p).mp hp), rfl⟩

def ownerPermission (account : AccountName) (auth : Authority) (time : ℕ) : PermissionObject :=
  { parent := 0, owner := account, name := ownerName, lastUpdated := time, auth }

def activePermission (parent : ℕ) (account : AccountName) (auth : Authority) (time : ℕ) : PermissionObject :=
  { parent, owner := account, name := activeName, lastUpdated := time, auth }

def withAccountPermissions (db : Db) (account : AccountName) (owner active : Authority) (time : ℕ) : Db :=
  (db.addPermission (ownerPermission account owner time)).addPermission
    (activePermission db.nextPermissionId account active time)

lemma initializeAccount_ramUsage {r r' : ResourceLimits.Db} (h : r.initializeAccount account = .ok r')
    (b : AccountName) : r'.ramUsage b = r.ramUsage b := by
  obtain ⟨limits, -, h⟩ := bind_ok h
  obtain ⟨usage, hu, h⟩ := bind_ok h
  obtain ⟨perDay, -, h⟩ := bind_ok h
  cases h
  obtain ⟨hn, rfl⟩ := createRow_ok hu
  by_cases hb : account = b
  · subst hb
    simp [ResourceLimits.Db.ramUsage, hn]
  · simp [ResourceLimits.Db.ramUsage, find?_set_of_ne _ _ hb]

lemma establish_ok {active ownerAuth : Authority} {time : ℕ} (h : db.establish account ownerAuth active time = .ok db') :
    db.findOwned account ownerName = none ∧
      Charged (db.withAccountPermissions account ownerAuth active time) db' account
        (overheadPerAccount + permissionSize ownerAuth + permissionSize active) := by
  obtain ⟨⟨i, db1⟩, h1, h⟩ := bind_ok h
  obtain ⟨hf, h1⟩ := createPermission_ok h1
  cases h1
  obtain ⟨⟨j, db2⟩, h2, h⟩ := bind_ok h
  obtain ⟨-, h2⟩ := createPermission_ok h2
  cases h2
  obtain ⟨r, hr, h⟩ := bind_ok h
  obtain ⟨r', hd, hc⟩ := addRamUsage_charged h
  refine ⟨hf, r', hd, ?_⟩
  intro b
  rw [hc b, initializeAccount_ramUsage hr]
  rfl

lemma applyEosioNewaccount_ok {create : NewAccount}
    (h : db.applyEosioNewaccount ctx authorization create = .ok db') :
    create.name ≠ 0 ∧ db.accounts.contains create.name = false ∧
      db.findOwned create.name ownerName = none ∧
      Charged (withAccountPermissions { db with accounts := db.accounts.set create.name {} } create.name create.owner
          create.active ctx.pendingBlockTime)
        db' create.name (overheadPerAccount + permissionSize create.owner + permissionSize create.active) := by
  iterate 3 obtain ⟨-, h⟩ := eosAssert_ok h
  obtain ⟨hz, h⟩ := eosAssert_ok h
  obtain ⟨-, h⟩ := eosAssert_ok h
  obtain ⟨creator, -, h⟩ := bind_ok h
  obtain ⟨-, h⟩ := eosAssert_ok h
  obtain ⟨hn, h⟩ := eosAssert_ok h
  obtain ⟨-, -, h⟩ := bind_ok h
  obtain ⟨-, -, h⟩ := bind_ok h
  exact ⟨hz, hn, establish_ok h⟩

lemma applyEosioUpdateauth_ok (h : db.applyEosioUpdateauth ctx authorization update = .ok db') :
    update.permission ≠ 0 ∧ (update.permission = ownerName → update.parent = 0) ∧
      db.accounts.contains update.account = true ∧
      ∃ parentId, db.updateauthParent update = .ok parentId ∧
        ((∃ p, db.findOwned update.account update.permission = some p ∧ parentId = p.2.parent ∧
            Charged (db.modifyPermission p update.auth ctx.pendingBlockTime) db' p.2.owner
              (permissionSize update.auth - permissionSize p.2.auth)) ∨
          db.findOwned update.account update.permission = none ∧
            Charged
              (db.addPermission
                { parent := parentId
                  owner := update.account
                  name := update.permission
                  lastUpdated := ctx.pendingBlockTime
                  auth := update.auth })
              db' update.account (permissionSize update.auth)) := by
  obtain ⟨-, h⟩ := eosAssert_ok h
  obtain ⟨u, hu, h⟩ := bind_ok h
  obtain ⟨hz, hu⟩ := eosAssert_ok hu
  obtain ⟨-, hu⟩ := eosAssert_ok hu
  obtain ⟨-, hu⟩ := eosAssert_ok hu
  obtain ⟨row, hrow, hu⟩ := bind_ok hu
  obtain ⟨-, hu⟩ := eosAssert_ok hu
  obtain ⟨-, hu⟩ := eosAssert_ok hu
  obtain ⟨hp, -⟩ := eosAssert_ok hu
  obtain ⟨o, ho, h⟩ := bind_ok h
  obtain ⟨-, -, hf⟩ := findPermission_ok ho
  obtain ⟨parentId, hid, h⟩ := bind_ok h
  have ha : db.accounts.contains update.account = true :=
    (db.accounts.contains_iff _).mpr ⟨row, getRow_ok.mp hrow⟩
  refine ⟨hz, hp, ha, parentId, hid, ?_⟩
  cases o with
  | some p =>
    obtain ⟨he, h⟩ := eosAssert_ok h
    exact .inl ⟨p, hf, he, addRamUsage_charged h⟩
  | none =>
    obtain ⟨⟨i, db1⟩, h1, h⟩ := bind_ok h
    obtain ⟨-, h1⟩ := createPermission_ok h1
    cases h1
    exact .inr ⟨hf, addRamUsage_charged h⟩

lemma updateauthParent_ok {parentId : ℕ} (h : db.updateauthParent update = .ok parentId) :
    (update.permission = ownerName ∧ parentId = 0) ∨
      (update.permission ≠ ownerName ∧
        ∃ p, db.findOwned update.account update.parent = some (parentId, p)) := by
  rw [updateauthParent] at h
  split_ifs at h with hn
  · obtain ⟨⟨i, p⟩, hp, h⟩ := bind_ok h
    cases h
    exact .inr ⟨hn, p, (getPermission_ok.mp hp).2.2⟩
  · cases h
    exact .inl ⟨by simpa using hn, rfl⟩

lemma applyEosioDeleteauth_ok {remove : DeleteAuth} (h : db.applyEosioDeleteauth authorization remove = .ok db') :
    remove.permission ≠ activeName ∧ remove.permission ≠ ownerName ∧
      (∀ e ∈ db.links.entries, (ofLex e.1).1 = remove.account → e.2 ≠ remove.permission) ∧
      remove.permission ≠ 0 ∧
      ∃ p, db.findOwned remove.account remove.permission = some p ∧
        (∀ i q, db.permissions.find? i = some q → q.parent ≠ p.1) ∧
        Charged { db with permissions := db.permissions.erase p.1 } db' remove.account
          (-permissionSize p.2.auth) := by
  obtain ⟨-, h⟩ := eosAssert_ok h
  obtain ⟨ha, h⟩ := eosAssert_ok h
  obtain ⟨ho, h⟩ := eosAssert_ok h
  obtain ⟨hl, h⟩ := eosAssert_ok h
  obtain ⟨p, hp, h⟩ := bind_ok h
  obtain ⟨db1, h1, h⟩ := bind_ok h
  obtain ⟨hc, rfl⟩ := removePermission_ok h1
  obtain ⟨-, hz, hf⟩ := getPermission_ok.mp hp
  exact ⟨ha, ho, hl, hz, p, hf, hc, addRamUsage_charged h⟩

lemma setLink_ok {link : LinkAuth} (h : db.setLink link = .ok db') :
    Charged { db with links := db.links.set (linkKey link.account link.code link.type) link.requirement } db'
      link.account
      (if db.links.contains (linkKey link.account link.code link.type) then 0
        else permissionLinkObjectSize) := by
  rw [setLink] at h
  cases hf : db.links.find? (linkKey link.account link.code link.type) with
  | some required =>
    rw [hf] at h
    obtain ⟨-, h⟩ := eosAssert_ok h
    cases h
    simp only [contains, hf, Option.isSome_some, if_true]
    exact charged_zero _ _
  | none =>
    rw [hf] at h
    simp only [contains, hf, Option.isSome_none, Bool.false_eq_true, if_false]
    exact addRamUsage_charged h

lemma applyEosioLinkauth_ok {link : LinkAuth} (h : db.applyEosioLinkauth authorization link = .ok db') :
    link.requirement ≠ 0 ∧ db.accounts.contains link.account = true ∧
      Charged { db with links := db.links.set (linkKey link.account link.code link.type) link.requirement } db'
        link.account
        (if db.links.contains (linkKey link.account link.code link.type) then 0
          else permissionLinkObjectSize) := by
  obtain ⟨hz, h⟩ := eosAssert_ok h
  obtain ⟨-, h⟩ := eosAssert_ok h
  obtain ⟨ha, h⟩ := eosAssert_ok h
  obtain ⟨-, h⟩ := eosAssert_ok h
  obtain ⟨-, h⟩ := eosAssert_ok h
  exact ⟨hz, ha, setLink_ok h⟩

lemma applyEosioUnlinkauth_ok {unlink : UnlinkAuth} (h : db.applyEosioUnlinkauth authorization unlink = .ok db') :
    db.links.contains (linkKey unlink.account unlink.code unlink.type) = true ∧
      Charged { db with links := db.links.erase (linkKey unlink.account unlink.code unlink.type) } db' unlink.account
        (-permissionLinkObjectSize) := by
  obtain ⟨-, h⟩ := eosAssert_ok h
  obtain ⟨hc, h⟩ := eosAssert_ok h
  obtain ⟨db1, h1, h⟩ := bind_ok h
  cases h
  obtain ⟨r, rfl, hr⟩ := addRamUsage_charged h1
  exact ⟨hc, r, rfl, hr⟩

lemma chargeDifference_charged {oldSize newSize : ℕ} (h : db.chargeDifference account oldSize newSize = .ok db') :
    Charged db db' account (newSize - oldSize) := by
  rw [chargeDifference] at h
  split_ifs at h with hne
  · exact addRamUsage_charged h
  · cases h
    have hz : (newSize : ℤ) - oldSize = 0 := by
      rw [not_not.mp hne, sub_self]
    rw [hz]
    exact charged_zero db account

lemma applyEosioSetcode_ok {act : SetCode} (h : db.applyEosioSetcode rt authorization act = .ok db') :
    ∃ a version, db.accounts.find? act.account = some a ∧
      Charged { db with accounts := db.accounts.set act.account { a with codeVersion := version, code := act.code } }
        db' act.account (act.code.length * setcodeMultiplier - a.code.length * setcodeMultiplier) := by
  iterate 3 obtain ⟨-, h⟩ := eosAssert_ok h
  obtain ⟨-, -, h⟩ := bind_ok h
  obtain ⟨a, ha, h⟩ := bind_ok h
  obtain ⟨-, h⟩ := eosAssert_ok h
  exact ⟨a, _, getRow_ok.mp ha, by simpa using chargeDifference_charged h⟩

lemma applyEosioSetabi_ok {act : SetAbi} (h : db.applyEosioSetabi authorization act = .ok db') :
    ∃ a, db.accounts.find? act.account = some a ∧
      Charged { db with accounts := db.accounts.set act.account { a with abi := act.abi } } db' act.account
        (act.abi.length - a.abi.length) := by
  obtain ⟨-, h⟩ := eosAssert_ok h
  obtain ⟨a, ha, h⟩ := bind_ok h
  exact ⟨a, getRow_ok.mp ha, chargeDifference_charged h⟩

lemma cancelDeferredTransaction_ok {p : Packing} {senderId : ℕ} {sender : AccountName}
    (h : db.cancelDeferredTransaction p senderId sender = .ok db') :
    (db.generated.find? (senderKey sender senderId) = none ∧ db' = db) ∨
      ∃ g, db.generated.find? (senderKey sender senderId) = some g ∧
        Charged { db with generated := db.generated.erase (senderKey sender senderId) } db' g.payer
          (-generatedSize p g) := by
  rw [cancelDeferredTransaction] at h
  cases hf : db.generated.find? (senderKey sender senderId) with
  | none =>
    rw [hf] at h
    cases h
    exact .inl ⟨rfl, rfl⟩
  | some g =>
    rw [hf] at h
    obtain ⟨db1, h1, h⟩ := bind_ok h
    cases h
    obtain ⟨r, rfl, hr⟩ := addRamUsage_charged h1
    exact .inr ⟨g, rfl, r, rfl, hr⟩

lemma applyEosioCanceldelay_ok {p : Packing} {cancel : CancelDelay}
    (h : db.applyEosioCanceldelay p authorization cancel = .ok db') :
    db.cancelDeferredTransaction p (transactionIdToSenderId cancel.trxId) 0 = .ok db' := by
  obtain ⟨-, h⟩ := eosAssert_ok h
  exact h

inductive NativeStep (rt : Runtime) (ctx : Context) (act : Action) (db db' : Db) : Prop
  | newaccount (d : NewAccount) (hn : act.name = newaccountName) (hd : act.asNewaccount = .ok d)
      (h : db.applyEosioNewaccount ctx act.authorization d = .ok db')
  | setcode (d : SetCode) (hn : act.name = setcodeName) (hd : act.asSetcode = .ok d)
      (h : db.applyEosioSetcode rt act.authorization d = .ok db')
  | setabi (d : SetAbi) (hn : act.name = setabiName) (hd : act.asSetabi = .ok d)
      (h : db.applyEosioSetabi act.authorization d = .ok db')
  | updateauth (d : UpdateAuth) (hn : act.name = updateauthName) (hd : act.asUpdateauth = .ok d)
      (h : db.applyEosioUpdateauth ctx act.authorization d = .ok db')
  | deleteauth (d : DeleteAuth) (hn : act.name = deleteauthName) (hd : act.asDeleteauth = .ok d)
      (h : db.applyEosioDeleteauth act.authorization d = .ok db')
  | linkauth (d : LinkAuth) (hn : act.name = linkauthName) (hd : act.asLinkauth = .ok d)
      (h : db.applyEosioLinkauth act.authorization d = .ok db')
  | unlinkauth (d : UnlinkAuth) (hn : act.name = unlinkauthName) (hd : act.asUnlinkauth = .ok d)
      (h : db.applyEosioUnlinkauth act.authorization d = .ok db')
  | canceldelay (d : CancelDelay) (hn : act.name = canceldelayName) (hd : act.asCanceldelay = .ok d)
      (h : db.applyEosioCanceldelay rt.packing act.authorization d = .ok db')
  | other (h : db' = db)

lemma applyNative_step {act : Action} (h : db.applyNative rt ctx act = .ok db') :
    NativeStep rt ctx act db db' := by
  rw [applyNative] at h
  split_ifs at h with h1 h2 h3 h4 h5 h6 h7 h8
  · obtain ⟨d, hd, h⟩ := bind_ok h
    exact .newaccount d h1 hd h
  · obtain ⟨d, hd, h⟩ := bind_ok h
    exact .setcode d h2 hd h
  · obtain ⟨d, hd, h⟩ := bind_ok h
    exact .setabi d h3 hd h
  · obtain ⟨d, hd, h⟩ := bind_ok h
    exact .updateauth d h4 hd h
  · obtain ⟨d, hd, h⟩ := bind_ok h
    exact .deleteauth d h5 hd h
  · obtain ⟨d, hd, h⟩ := bind_ok h
    exact .linkauth d h6 hd h
  · obtain ⟨d, hd, h⟩ := bind_ok h
    exact .unlinkauth d h7 hd h
  · obtain ⟨d, hd, h⟩ := bind_ok h
    exact .canceldelay d h8 hd h
  · exact .other (Except.ok.inj h).symm

structure NativeFrame (db db' : Db) : Prop where
  rest : ∃ accounts permissions n links generated resources,
    db' = { db with accounts, permissions, nextPermissionId := n, links, generated, resources }
  accounts : db'.accounts = db.accounts ∨ ∃ name row, db'.accounts = db.accounts.set name row
  generated : db'.generated = db.generated ∨ ∃ k, db'.generated = db.generated.erase k

lemma applyNative_frame {act : Action} (h : db.applyNative rt ctx act = .ok db') :
    NativeFrame db db' := by
  cases applyNative_step h with
  | newaccount d hn hd h =>
    obtain ⟨-, -, -, r, rfl, -⟩ := applyEosioNewaccount_ok h
    exact ⟨⟨_, _, _, _, _, _, rfl⟩, .inr ⟨_, _, rfl⟩, .inl rfl⟩
  | setcode d hn hd h =>
    obtain ⟨a, version, -, r, rfl, -⟩ := applyEosioSetcode_ok h
    exact ⟨⟨_, _, _, _, _, _, rfl⟩, .inr ⟨_, _, rfl⟩, .inl rfl⟩
  | setabi d hn hd h =>
    obtain ⟨a, -, r, rfl, -⟩ := applyEosioSetabi_ok h
    exact ⟨⟨_, _, _, _, _, _, rfl⟩, .inr ⟨_, _, rfl⟩, .inl rfl⟩
  | updateauth d hn hd h =>
    obtain ⟨-, -, -, parentId, -, ⟨e, -, -, r, rfl, -⟩ | ⟨-, r, rfl, -⟩⟩ := applyEosioUpdateauth_ok h
    · exact ⟨⟨_, _, _, _, _, _, rfl⟩, .inl rfl, .inl rfl⟩
    · exact ⟨⟨_, _, _, _, _, _, rfl⟩, .inl rfl, .inl rfl⟩
  | deleteauth d hn hd h =>
    obtain ⟨-, -, -, -, e, -, -, r, rfl, -⟩ := applyEosioDeleteauth_ok h
    exact ⟨⟨_, _, _, _, _, _, rfl⟩, .inl rfl, .inl rfl⟩
  | linkauth d hn hd h =>
    obtain ⟨-, -, r, rfl, -⟩ := applyEosioLinkauth_ok h
    exact ⟨⟨_, _, _, _, _, _, rfl⟩, .inl rfl, .inl rfl⟩
  | unlinkauth d hn hd h =>
    obtain ⟨-, r, rfl, -⟩ := applyEosioUnlinkauth_ok h
    exact ⟨⟨_, _, _, _, _, _, rfl⟩, .inl rfl, .inl rfl⟩
  | canceldelay d hn hd h =>
    obtain ⟨-, rfl⟩ | ⟨g, -, r, rfl, -⟩ := cancelDeferredTransaction_ok (applyEosioCanceldelay_ok h)
    · exact ⟨⟨_, _, _, _, _, _, rfl⟩, .inl rfl, .inl rfl⟩
    · exact ⟨⟨_, _, _, _, _, _, rfl⟩, .inl rfl, .inr ⟨_, rfl⟩⟩
  | other ho =>
    rw [ho]
    exact ⟨⟨_, _, _, _, _, _, rfl⟩, .inl rfl, .inl rfl⟩

end Db

end XosChain
