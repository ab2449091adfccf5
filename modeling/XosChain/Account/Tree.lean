import XosChain.Account.Forest

namespace XosChain

open Lib ResourceLimits Config FlatMap

namespace Db

variable {db db' : Db} {rt : Runtime} {ctx : Context} {account : AccountName} {authorization : List PermissionLevel}

lemma ownerName_ne_zero : ownerName ≠ 0 := by decide

lemma activeName_ne_zero : activeName ≠ 0 := by decide

lemma activeName_ne_ownerName : activeName ≠ ownerName := by decide

structure WellRooted (db : Db) : Prop where
  forest : Forest db
  standard : Standard db

lemma WellRooted.congr (h : WellRooted db) (hp : db'.permissions = db.permissions)
    (hn : db'.nextPermissionId = db.nextPermissionId) (ha : ∀ a, db'.accounts.contains a = db.accounts.contains a) :
    WellRooted db' :=
  ⟨h.forest.congr hp ha hn, h.standard.congr hp ha⟩

lemma WellRooted.charged {ramDelta : ℤ} (h : WellRooted db) (hc : Charged db db' account ramDelta) : WellRooted db' := by
  obtain ⟨r, rfl, -⟩ := hc
  exact h.congr rfl rfl (fun _ => rfl)

lemma WellRooted.setAccount (h : WellRooted db) (a : AccountObject) (ha : db.accounts.contains account = true) :
    WellRooted { db with accounts := db.accounts.set account a } :=
  h.congr rfl rfl (fun b => contains_set_accounts a b ha)

lemma contains_set_new (a : AccountObject) (b : AccountName) :
    (db.accounts.set account a).contains b = true ↔ b = account ∨ db.accounts.contains b = true := by
  by_cases hb : account = b
  · simp [hb, contains]
  · simp [contains, find?_set_of_ne _ _ hb, Ne.symm hb]

lemma Forest.findOwned_none_of_fresh (h : Forest db) (hn : db.accounts.contains account = false) (hz : account ≠ 0)
    (name : PermissionName) : db.findOwned account name = none := by
  rw [findOwned_none]
  rintro i p hp ⟨ho, -⟩
  have hi : i ≠ 0 := h.ne_zero_of_owner hp (ho ▸ hz)
  have ha := (h.owned i p hi hp).1
  rw [ho, hn] at ha
  cases ha

lemma Forest.addAccount (h : Forest db) (a : AccountObject) (hz : account ≠ 0) :
    Forest { db with accounts := db.accounts.set account a } := by
  refine ⟨⟨h.reserved, h.below, h.unique⟩, ?_, h.root, h.parent, ?_⟩
  · intro i p hi hp
    obtain ⟨ha, hn⟩ := h.owned i p hi hp
    exact ⟨(contains_set_new a _).mpr (.inr ha), hn⟩
  · have := h.named
    simpa [contains, find?_set_of_ne _ _ hz] using this

variable {time : ℕ} {owner active : Authority} {q : PermissionObject} {a : AccountObject} {initialKey : PublicKey}

lemma Forest.addOwner (h : Forest db) (a : AccountObject) {owner : Authority} (hz : account ≠ 0)
    (hn : db.accounts.contains account = false) :
    Forest (addPermission { db with accounts := db.accounts.set account a } (ownerPermission account owner time)) :=
  (h.addAccount a hz).add
    { account := (contains_set_new a _).mpr (.inl rfl)
      named := ownerName_ne_zero
      fresh := h.findOwned_none_of_fresh hn hz _
      root := by simp [ownerPermission]
      parent := fun hp => absurd rfl hp }

lemma WellRooted.newAccount (h : WellRooted db) (a : AccountObject)
    (hz : account ≠ 0) (hn : db.accounts.contains account = false) :
    WellRooted (withAccountPermissions { db with accounts := db.accounts.set account a } account owner active time) := by
  have hf := h.forest.addAccount a hz
  have hf1 : Forest (addPermission { db with accounts := db.accounts.set account a }
      (ownerPermission account owner time)) := h.forest.addOwner a hz hn
  have hf2 : Forest (withAccountPermissions { db with accounts := db.accounts.set account a } account owner active
      time) := by
    refine hf1.add ⟨(contains_set_new a _).mpr (.inl rfl), activeName_ne_zero, ?_, ?_, ?_⟩
    · rw [findOwned_none]
      rintro i p hp ⟨ho, hna⟩
      rcases find?_addPermission hp with ⟨-, rfl⟩ | hp
      · exact absurd hna.symm activeName_ne_ownerName
      · exact findOwned_none.mp (h.forest.findOwned_none_of_fresh hn hz _) i p hp ⟨ho, hna⟩
    · have hpos := hf.below 0 _ hf.reserved
      exact iff_of_false (Nat.ne_of_gt hpos) activeName_ne_ownerName
    · intro _
      exact ⟨_, find?_set_self _ _ _, rfl⟩
  refine ⟨hf2, ?_⟩
  intro b hb
  rcases (contains_set_new a b).mp hb with rfl | hb
  · exact ⟨hf1.has_add (Forest.has_added _ _), Forest.has_added _ _⟩
  · obtain ⟨ho, hac'⟩ := h.standard b hb
    exact ⟨hf1.has_add (hf.has_add ho), hf1.has_add (hf.has_add hac')⟩

lemma WellRooted.addChild (h : WellRooted db) {i : ℕ} {p : PermissionObject} (hq : db.permissions.find? i = some q)
    (ha : db.accounts.contains q.owner = true) (hp : p.parent = i) (ho : p.owner = q.owner) (hz : p.name ≠ 0)
    (hn : p.name ≠ ownerName) (hf : db.findOwned p.owner p.name = none) : WellRooted (db.addPermission p) := by
  have hi : i ≠ 0 := h.forest.ne_zero hq ha
  have hfit : db.Fits p := by
    refine ⟨ho ▸ ha, hz, hf, ?_, ?_⟩
    · simp [hp, hi, hn]
    · intro _
      exact ⟨q, hp ▸ hq, ho.symm⟩
  refine ⟨h.forest.add hfit, ?_⟩
  exact fun b hb => ⟨h.forest.has_add (h.standard b hb).1, h.forest.has_add (h.standard b hb).2⟩

lemma applyEosioUpdateauth_wellRooted (h : WellRooted db) {update : UpdateAuth}
    (hs : db.applyEosioUpdateauth ctx authorization update = .ok db') : WellRooted db' := by
  obtain ⟨hz, -, ha, parentId, hid, ⟨p, hp, -, hc⟩ | ⟨hn, hc⟩⟩ := applyEosioUpdateauth_ok hs
  · obtain ⟨hf, ho, -⟩ := findOwned_some hp
    have hi : p.1 ≠ 0 := h.forest.ne_zero hf (by rw [ho]; exact ha)
    refine WellRooted.charged ⟨h.forest.modify hf hi, ?_⟩ hc
    exact fun b hb => ⟨(h.standard b hb).1.modify hf, (h.standard b hb).2.modify hf⟩
  · have hno : update.permission ≠ ownerName := by
      intro he
      have hs := has_iff.mp (h.standard _ ha).1
      rw [← he, hn] at hs
      cases hs
    obtain ⟨he, -⟩ | ⟨-, q, hq⟩ := updateauthParent_ok hid
    · exact absurd he hno
    · obtain ⟨hf, ho, -⟩ := findOwned_some hq
      exact (h.addChild hf (by rw [ho]; exact ha) rfl ho.symm hz hno hn).charged hc

lemma applyEosioDeleteauth_wellRooted (h : WellRooted db) {remove : DeleteAuth}
    (hs : db.applyEosioDeleteauth authorization remove = .ok db') : WellRooted db' := by
  obtain ⟨hna, hno, -, hz, p, hp, hc, hch⟩ := applyEosioDeleteauth_ok hs
  obtain ⟨hf, -, hn⟩ := findOwned_some hp
  have hi : p.1 ≠ 0 := by
    intro he
    rw [he, h.forest.reserved] at hf
    exact hz (by rw [← hn, ← Option.some.inj hf])
  refine WellRooted.charged ⟨h.forest.erase hi hc, ?_⟩ hch
  intro b hb
  exact ⟨(h.standard b hb).1.erase hf (fun _ => hn ▸ hno), (h.standard b hb).2.erase hf (fun _ => hn ▸ hna)⟩

lemma applyNative_wellRooted (h : WellRooted db) {act : Action} (hs : db.applyNative rt ctx act = .ok db') :
    WellRooted db' := by
  cases applyNative_step hs with
  | newaccount d _ _ hd =>
    obtain ⟨hz, hn, -, hc⟩ := applyEosioNewaccount_ok hd
    exact (h.newAccount {} hz hn).charged hc
  | setcode d _ _ hd =>
    obtain ⟨a, version, ha, hc⟩ := applyEosioSetcode_ok hd
    exact (h.setAccount _ ((db.accounts.contains_iff _).mpr ⟨a, ha⟩)).charged hc
  | setabi d _ _ hd =>
    obtain ⟨a, ha, hc⟩ := applyEosioSetabi_ok hd
    exact (h.setAccount _ ((db.accounts.contains_iff _).mpr ⟨a, ha⟩)).charged hc
  | updateauth d _ _ hd => exact applyEosioUpdateauth_wellRooted h hd
  | deleteauth d _ _ hd => exact applyEosioDeleteauth_wellRooted h hd
  | linkauth d _ _ hd =>
    obtain ⟨-, -, hc⟩ := applyEosioLinkauth_ok hd
    obtain ⟨r, rfl, -⟩ := hc
    exact h.congr rfl rfl (fun _ => rfl)
  | unlinkauth d _ _ hd =>
    obtain ⟨-, hc⟩ := applyEosioUnlinkauth_ok hd
    obtain ⟨r, rfl, -⟩ := hc
    exact h.congr rfl rfl (fun _ => rfl)
  | canceldelay d _ _ hd =>
    obtain ⟨-, rfl⟩ | ⟨g, -, hc⟩ := cancelDeferredTransaction_ok (applyEosioCanceldelay_ok hd)
    · exact h
    · obtain ⟨r, rfl, -⟩ := hc
      exact h.congr rfl rfl (fun _ => rfl)
  | other hd =>
    rw [hd]
    exact h

lemma initializeDatabase_wellRooted : WellRooted initializeDatabase := by
  have hp : ∀ i p, initializeDatabase.permissions.find? i = some p → i = 0 ∧ p = {} := by
    intro i p hp
    by_cases hi : 0 = i
    · subst hi
      exact ⟨rfl, (Option.some.inj hp).symm⟩
    · simp [initializeDatabase, find?_set_of_ne _ _ hi] at hp
  refine ⟨⟨⟨rfl, ?_, ?_⟩, ?_, ?_, ?_, rfl⟩, fun a ha => by cases ha⟩
  · intro i p h
    rw [(hp i p h).1]
    exact Nat.zero_lt_one
  · intro i j p q hi hj _ _
    rw [(hp i p hi).1, (hp j q hj).1]
  · exact fun i p hi h => absurd (hp i p h).1 hi
  · exact fun i p hi h => absurd (hp i p h).1 hi
  · intro i p h hz
    rw [(hp i p h).2] at hz
    exact absurd rfl hz

lemma createNativeAccount_wellRooted (h : WellRooted db) (hz : account ≠ 0)
    (hs : db.createNativeAccount account a owner active time = .ok db') : WellRooted db' := by
  obtain ⟨accounts, hr, hs⟩ := bind_ok hs
  obtain ⟨hn, rfl⟩ := createRow_ok hr
  obtain ⟨-, hc⟩ := establish_ok hs
  exact (h.newAccount a hz (by simp [contains, hn])).charged hc

lemma createPermission_wellRooted (h : WellRooted db) {i : ℕ} {name : PermissionName} {auth : Authority}
    {r : ℕ × Db} (hq : db.permissions.find? i = some q) (ho : q.owner = account) (hz : account ≠ 0) (hnz : name ≠ 0)
    (hno : name ≠ ownerName) (hs : db.createPermission account name i auth time = .ok r) :
    WellRooted r.2 ∧ ∃ p, r.2.permissions.find? r.1 = some p ∧ p.owner = account := by
  obtain ⟨hf, rfl⟩ := createPermission_ok hs
  have hi : i ≠ 0 := h.forest.ne_zero_of_owner hq (ho ▸ hz)
  have ha := (h.forest.owned i q hi hq).1
  exact ⟨h.addChild hq ha rfl ho.symm hnz hno hf, _, find?_set_self _ _ _, rfl⟩

lemma genesis_wellRooted {abi : Bytes} (h : genesis initialKey abi time = .ok db) : WellRooted db := by
  obtain ⟨db1, h1, h⟩ := bind_ok h
  obtain ⟨db2, h2, h⟩ := bind_ok h
  obtain ⟨db3, h3, h⟩ := bind_ok h
  obtain ⟨active, hactive, h⟩ := bind_ok h
  obtain ⟨⟨majority, db4⟩, h4, h⟩ := bind_ok h
  obtain ⟨⟨minority, db5⟩, h5, h⟩ := bind_ok h
  cases h
  have hw1 := createNativeAccount_wellRooted initializeDatabase_wellRooted (by decide) h1
  have hw2 := createNativeAccount_wellRooted hw1 (by decide) h2
  have hw3 := createNativeAccount_wellRooted hw2 (by decide) h3
  obtain ⟨hf, ho, -⟩ := findOwned_some (getPermission_ok.mp hactive).2.2
  obtain ⟨hw4, p, hp, hpo⟩ := createPermission_wellRooted hw3 hf ho (by decide) (by decide) (by decide) h4
  exact (createPermission_wellRooted hw4 hp hpo (by decide) (by decide) (by decide) h5).1

lemma createNativeAccount_frame (h : db.createNativeAccount account a owner active time = .ok db') :
    ∃ accounts permissions n resources, db' = { db with accounts, permissions, nextPermissionId := n, resources } := by
  obtain ⟨accounts, -, h⟩ := bind_ok h
  obtain ⟨-, r, rfl, -⟩ := establish_ok h
  exact ⟨_, _, _, _, rfl⟩

lemma genesis_frame {abi : Bytes} (h : genesis initialKey abi time = .ok db) :
    ∃ accounts permissions n resources,
      db = { initializeDatabase with accounts, permissions, nextPermissionId := n, resources } := by
  obtain ⟨db1, h1, h⟩ := bind_ok h
  obtain ⟨db2, h2, h⟩ := bind_ok h
  obtain ⟨db3, h3, h⟩ := bind_ok h
  obtain ⟨active, -, h⟩ := bind_ok h
  obtain ⟨⟨majority, db4⟩, h4, h⟩ := bind_ok h
  obtain ⟨⟨minority, db5⟩, h5, h⟩ := bind_ok h
  cases h
  obtain ⟨_, _, _, _, rfl⟩ := createNativeAccount_frame h1
  obtain ⟨_, _, _, _, rfl⟩ := createNativeAccount_frame h2
  obtain ⟨_, _, _, _, rfl⟩ := createNativeAccount_frame h3
  cases (createPermission_ok h4).2
  cases (createPermission_ok h5).2
  exact ⟨_, _, _, _, rfl⟩

inductive NativeRun (rt : Runtime) (allowed : Db → Action → Prop) (start : Db) : Db → Prop
  | start : NativeRun rt allowed start start
  | step {db db' : Db} (ctx : Context) (act : Action) (h : NativeRun rt allowed start db) (ha : allowed db act)
      (hs : db.applyNative rt ctx act = .ok db') : NativeRun rt allowed start db'

lemma NativeRun.wellRooted {allowed : Db → Action → Prop} {start : Db} (h : NativeRun rt allowed start db)
    (hs : WellRooted start) : WellRooted db := by
  induction h with
  | start => exact hs
  | step ctx act _ _ hs ih => exact applyNative_wellRooted ih hs

end Db

end XosChain
