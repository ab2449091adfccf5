import XosChain.Deferred.Identity

namespace XosChain

open Lib ResourceLimits Config Option FlatMap

namespace Db

variable {db db' start : Db} {rt : Runtime} {p : Packing} {ctx : Context} {authorization : List PermissionLevel}
  {a : AccountName}

lemma Keyed.find?_of_le (h : Keyed db) {i : ℕ} (hi : db.nextPermissionId ≤ i) : db.permissions.find? i = none := by
  cases hf : db.permissions.find? i with
  | none => rfl
  | some q => exact absurd (h.below i q hf) (not_lt.mpr hi)

lemma drift_addPermission {q : PermissionObject} (hf : db.permissions.find? db.nextPermissionId = none) :
    (db.addPermission q).drift p a = db.drift p a - share a q.owner (permissionSize q.auth) := by
  rw [addPermission, drift_setPermission, hf]
  simp only [elim_none]
  ring

variable {account : AccountName} {owner active : Authority} {time : ℕ} {trx : Transaction}

lemma drift_withAccountPermissions (hk : Keyed db) :
    (db.withAccountPermissions account owner active time).drift p a =
      db.drift p a - share a account (permissionSize owner + permissionSize active) := by
  have hnext : (db.addPermission (ownerPermission account owner time)).permissions.find?
      (db.addPermission (ownerPermission account owner time)).nextPermissionId = none := by
    rw [addPermission, find?_set_of_ne _ _ (Nat.lt_succ_self _).ne]
    exact hk.find?_of_le (Nat.le_succ _)
  rw [withAccountPermissions, drift_addPermission hnext, drift_addPermission (hk.find?_of_le le_rfl), share_add]
  simp only [ownerPermission, activePermission]
  ring

lemma applyEosioNewaccount_drift (hk : Keyed db) {create : NewAccount}
    (h : db.applyEosioNewaccount ctx authorization create = .ok db') : db'.drift p a = db.drift p a := by
  obtain ⟨-, hnew, -, hc⟩ := applyEosioNewaccount_ok h
  have hnone : db.accounts.find? create.name = none := by simpa [contains] using hnew
  have hk' : Keyed { db with accounts := db.accounts.set create.name {} } := hk.congr rfl rfl
  rw [drift_charged hc, drift_withAccountPermissions hk', drift_setAccount, hnone, share_add, share_add, share_add]
  simp only [elim_none, accountSize, List.length_nil, zero_mul, add_zero]
  ring

lemma applyEosioUpdateauth_drift (hk : Keyed db) {update : UpdateAuth}
    (h : db.applyEosioUpdateauth ctx authorization update = .ok db') : db'.drift p a = db.drift p a := by
  obtain ⟨-, -, -, parentId, -, ⟨e, he, -, hc⟩ | ⟨-, hc⟩⟩ := applyEosioUpdateauth_ok h
  · rw [drift_charged hc, modifyPermission, drift_setPermission, (findOwned_some he).1, share_sub]
    simp only [elim_some]
    ring
  · rw [drift_charged hc, drift_addPermission (hk.find?_of_le le_rfl)]
    ring

lemma applyEosioDeleteauth_drift {remove : DeleteAuth} (h : db.applyEosioDeleteauth authorization remove = .ok db') :
    db'.drift p a = db.drift p a := by
  obtain ⟨-, -, -, -, e, he, -, hc⟩ := applyEosioDeleteauth_ok h
  obtain ⟨hrow, ho, -⟩ := findOwned_some he
  rw [drift_charged hc, drift_erasePermission, hrow, share_neg]
  simp only [elim_some, ho]
  ring

lemma applyEosioLinkauth_drift {link : LinkAuth} (h : db.applyEosioLinkauth authorization link = .ok db') :
    db'.drift p a = db.drift p a := by
  obtain ⟨-, -, hc⟩ := applyEosioLinkauth_ok h
  rw [drift_charged hc, drift_setLink]
  cases hf : db.links.find? (linkKey link.account link.code link.type) with
  | none =>
    simp only [contains, hf]
    simp [linkKey]
  | some required =>
    simp only [contains, hf]
    simp

lemma applyEosioUnlinkauth_drift {unlink : UnlinkAuth} (h : db.applyEosioUnlinkauth authorization unlink = .ok db') :
    db'.drift p a = db.drift p a := by
  obtain ⟨hl, hc⟩ := applyEosioUnlinkauth_ok h
  obtain ⟨required, hf⟩ := (db.links.contains_iff _).mp hl
  rw [drift_charged hc, drift_eraseLink, hf, share_neg]
  simp only [elim_some, linkKey]
  simp

lemma applyEosioSetcode_drift {act : SetCode} (h : db.applyEosioSetcode rt authorization act = .ok db') :
    db'.drift p a = db.drift p a := by
  obtain ⟨row, version, hrow, hc⟩ := applyEosioSetcode_ok h
  rw [drift_charged hc, drift_setAccount, hrow, add_assoc, elim_some, ← share_sub, ← share_add]
  simp [accountSize]

lemma applyEosioSetabi_drift {act : SetAbi} (h : db.applyEosioSetabi authorization act = .ok db') :
    db'.drift p a = db.drift p a := by
  obtain ⟨row, hrow, hc⟩ := applyEosioSetabi_ok h
  rw [drift_charged hc, drift_setAccount, hrow, add_assoc, elim_some, ← share_sub, ← share_add]
  simp [accountSize]

lemma cancelDeferredTransaction_drift {senderId : ℕ} {sender : AccountName}
    (h : db.cancelDeferredTransaction p senderId sender = .ok db') : db'.drift p a = db.drift p a := by
  obtain ⟨-, rfl⟩ | ⟨g, hg, hc⟩ := cancelDeferredTransaction_ok h
  · rfl
  · rw [drift_charged hc, drift_eraseGenerated, hg, share_neg]
    simp only [elim_some]
    ring

lemma applyNative_drift (hk : Keyed db) {act : Action} (h : db.applyNative rt ctx act = .ok db') :
    db'.drift rt.packing a = db.drift rt.packing a := by
  cases applyNative_step h with
  | newaccount d hn hd h => exact applyEosioNewaccount_drift hk h
  | setcode d hn hd h => exact applyEosioSetcode_drift h
  | setabi d hn hd h => exact applyEosioSetabi_drift h
  | updateauth d hn hd h => exact applyEosioUpdateauth_drift hk h
  | deleteauth d hn hd h => exact applyEosioDeleteauth_drift h
  | linkauth d hn hd h => exact applyEosioLinkauth_drift h
  | unlinkauth d hn hd h => exact applyEosioUnlinkauth_drift h
  | canceldelay d hn hd h => exact cancelDeferredTransaction_drift (applyEosioCanceldelay_ok h)
  | other ho => rw [ho]

def NoReplacement (db : Db) : ChainOp → Prop
  | .scheduleDeferred ctx senderId _ _ _ => db.generated.find? (senderKey ctx.receiver senderId) = none
  | _ => True

lemma scheduleDeferred_drift {ctx : ApplyContext} {senderId : ℕ} {payer : AccountName}
    {replaceExisting : Bool} (hn : db.generated.find? (senderKey ctx.receiver senderId) = none)
    (h : db.scheduleDeferredTransaction p ctx senderId payer trx replaceExisting = .ok db') :
    db'.drift p a = db.drift p a := by
  obtain ⟨-, hc⟩ | ⟨g, hg, -⟩ := scheduleDeferredTransaction_ok h
  · rw [drift_charged hc, drift_setGenerated, hn]
    simp [sentRow, deferredRow]
  · rw [hn] at hg
    cases hg

lemma delay_drift {id : TransactionId} {delay : ℕ}
    (h : db.scheduleTransaction p ctx trx id delay = .ok db') : db'.drift p a = db.drift p a := by
  obtain ⟨g, -, -, hn, hc⟩ := scheduleTransaction_ok h
  rw [drift_charged hc, drift_setGenerated, hn]
  simp

lemma retireRow_drift {trxId : TransactionId} (h : db.retireRow p trxId = .ok db') :
    db'.drift p a = db.drift p a := by
  obtain ⟨e, hf, h⟩ := retireRow_ok h
  rw [drift_charged (removeScheduledTransaction_ok h), drift_eraseGenerated, (findGenerated_some hf).1, share_neg]
  simp only [elim_some]
  ring

structure Sound (db : Db) : Prop where
  rooted : WellRooted db
  below : TablesBelow db

lemma Sound.of_generated {generated : FlatMap SenderKey GeneratedTransaction} {r : ResourceLimits.Db} (h : Sound db) :
    Sound { db with generated, resources := r } :=
  ⟨h.rooted.congr rfl rfl (fun _ => rfl), h.below⟩

lemma applyOp_sound (hs : Sound db) {op : ChainOp} (h : db.applyOp rt op = .ok db') : Sound db' := by
  cases ho : op.onTables with
  | true =>
    have hstep := applyOp_tableStep ho h
    exact ⟨hs.rooted.congr hstep.permissions hstep.nextPermissionId (fun _ => by rw [hstep.accounts]),
      hstep.below hs.below⟩
  | false =>
    obtain ⟨ctx, act, h⟩ | ⟨generated, resources, rfl⟩ := applyOp_offTables ho h
    · have hsame := applyNative_sameTables h
      refine ⟨applyNative_wellRooted hs.rooted h, ?_⟩
      rw [TablesBelow, hsame.tables, hsame.nextTableId]
      exact hs.below
    · exact hs.of_generated

lemma applyOp_drift (hs : Sound db) {op : ChainOp} (ha : db.NoReplacement op) (h : db.applyOp rt op = .ok db') :
    db'.drift rt.packing a = db.drift rt.packing a := by
  by_cases ho : op.onTables = true
  · have hd := (applyOp_tableStep ho h).drift hs.below a
    rwa [Pi.zero_apply, add_zero] at hd
  · cases op with
    | native ctx act => exact applyNative_drift hs.rooted.forest.toKeyed h
    | scheduleDeferred ctx senderId payer trx replaceExisting => exact scheduleDeferred_drift ha h
    | cancelDeferred senderId sender => exact cancelDeferredTransaction_drift h
    | delay ctx trx delay => exact delay_drift h
    | retire trxId => exact retireRow_drift h
    | dbStore | dbUpdate | dbRemove | idxStore | idxUpdate | idxRemove => exact absurd rfl ho

lemma ChainRun.sound {allowed : Db → ChainOp → Prop} (h : ChainRun rt allowed start db) (hs : Sound start) :
    Sound db := by
  induction h with
  | start => exact hs
  | step op _ _ hstep ih => exact applyOp_sound ih hstep

lemma ChainRun.drift (h : ChainRun rt NoReplacement start db) (hs : Sound start) :
    db.drift rt.packing a = start.drift rt.packing a := by
  induction h with
  | start => rfl
  | step op hr ha hstep ih => exact (applyOp_drift (hr.sound hs) ha hstep).trans ih

lemma drift_initializeDatabase : initializeDatabase.drift p a = -share a 0 (permissionSize {}) := by
  simp [drift, billed, initializeDatabase, billedAccounts, billedPermissions, billedLinks, billedGenerated,
    billedTables, billedKeyValues, billedSecondary, IndexType.all, sum_set_eq, ResourceLimits.Db.ramUsage,
    ResourceLimits.initializeDatabase]
  rfl

lemma createNativeAccount_drift (hk : Keyed db) {name : AccountName} {row : AccountObject}
    (h : db.createNativeAccount name row owner active time = .ok db') :
    db'.drift p a = db.drift p a - share a name (accountSize row - overheadPerAccount) := by
  obtain ⟨accounts, hn, h⟩ := bind_ok h
  obtain ⟨hnone, rfl⟩ := createRow_ok hn
  obtain ⟨-, hc⟩ := establish_ok h
  have hk' : Keyed { db with accounts := db.accounts.set name row } := hk.congr rfl rfl
  rw [drift_charged hc, drift_withAccountPermissions hk', drift_setAccount, hnone]
  simp only [elim_none, share_add, share_sub]
  ring

def genesisUnbilled (abi : Bytes) (a : AccountName) : ℤ :=
  share a systemAccountName abi.length + share a producersAccountName (2 * permissionSize activeProducersAuthority)

def BilledFromGenesis (abi : Bytes) (a : AccountName) : Prop :=
  a ≠ producersAccountName ∧ (a = systemAccountName → abi = [])

lemma genesisUnbilled_eq_zero {abi : Bytes} : genesisUnbilled abi a = 0 ↔ BilledFromGenesis abi a := by
  have hsystem : systemAccountName ≠ producersAccountName := by decide
  have hpos : 2 * permissionSize activeProducersAuthority ≠ 0 := by decide
  rw [genesisUnbilled, BilledFromGenesis, share, share]
  by_cases hp : a = producersAccountName
  · rw [if_pos hp, if_neg (hp ▸ hsystem.symm), zero_add]
    exact iff_of_false (by exact_mod_cast hpos) fun h => h.1 hp
  · rw [if_neg hp, add_zero]
    by_cases hs : a = systemAccountName
    · rw [if_pos hs, Nat.cast_eq_zero, List.length_eq_zero_iff]
      exact ⟨fun h => ⟨hp, fun _ => h⟩, fun h => h.2 hs⟩
    · rw [if_neg hs]
      exact iff_of_true rfl ⟨hp, fun h => absurd h hs⟩

lemma createPermission_drift (hk : Keyed db) {name : PermissionName} {parent : ℕ}
    {auth : Authority} {r : ℕ × Db} (h : db.createPermission account name parent auth time = .ok r) :
    Keyed r.2 ∧ r.2.drift p a = db.drift p a - share a account (permissionSize auth) := by
  obtain ⟨hf, rfl⟩ := createPermission_ok h
  exact ⟨hk.add hf, drift_addPermission (hk.find?_of_le le_rfl)⟩

lemma genesis_drift {initialKey : PublicKey} {abi : Bytes} (h : genesis initialKey abi time = .ok db)
    (ha : a ≠ 0) : db.drift p a = -genesisUnbilled abi a := by
  obtain ⟨db1, h1, h⟩ := bind_ok h
  obtain ⟨db2, h2, h⟩ := bind_ok h
  obtain ⟨db3, h3, h⟩ := bind_ok h
  obtain ⟨active, -, h⟩ := bind_ok h
  obtain ⟨⟨majority, db4⟩, h4, h⟩ := bind_ok h
  obtain ⟨⟨minority, db5⟩, h5, h⟩ := bind_ok h
  cases h
  have hw1 := createNativeAccount_wellRooted initializeDatabase_wellRooted (by decide) h1
  have hw2 := createNativeAccount_wellRooted hw1 (by decide) h2
  have hw3 := createNativeAccount_wellRooted hw2 (by decide) h3
  obtain ⟨hk4, hd4⟩ := createPermission_drift (p := p) (a := a) hw3.forest.toKeyed h4
  obtain ⟨-, hd5⟩ := createPermission_drift (p := p) (a := a) hk4 h5
  rw [hd5, hd4, createNativeAccount_drift hw2.forest.toKeyed h3, createNativeAccount_drift hw1.forest.toKeyed h2,
    createNativeAccount_drift initializeDatabase_wellRooted.forest.toKeyed h1, drift_initializeDatabase]
  have hsystem : accountSize { privileged := true, abi := abi } - overheadPerAccount = abi.length := by
    simp [accountSize]
  have hplain : accountSize {} - overheadPerAccount = 0 := by simp [accountSize]
  have hreserved : share a 0 (permissionSize {}) = 0 := if_neg ha
  rw [hsystem, hplain, hreserved, genesisUnbilled, two_mul, share_add, share_zero, share_zero]
  ring

theorem ram_usage_is_what_rows_are_billed_for {initialKey : PublicKey} {abi : Bytes} {time : ℕ}
    (hg : genesis initialKey abi time = .ok start) (hr : ChainRun rt NoReplacement start db) :
    ∀ account, db.accounts.contains account = true →
      db.resources.ramUsage account + genesisUnbilled abi account = db.billed rt.packing account ∧
      (db.resources.ramUsage account = db.billed rt.packing account ↔ BilledFromGenesis abi account) := by
  intro account ha
  have hs : Sound start := by
    refine ⟨genesis_wellRooted hg, ?_⟩
    rw [TablesBelow, (genesis_rows hg).2.tables]
    intro i t ht
    cases ht
  have hz : account ≠ 0 := by
    rintro rfl
    rw [(hr.sound hs).rooted.forest.named] at ha
    cases ha
  have hd : db.drift rt.packing account = -genesisUnbilled abi account := (hr.drift hs).trans (genesis_drift hg hz)
  rw [drift] at hd
  refine ⟨by linarith, ?_⟩
  rw [← genesisUnbilled_eq_zero]
  constructor
  · intro he
    linarith
  · intro he
    linarith

def sentBy (payer : AccountName) (delaySec : ℕ) : ChainOp :=
  .scheduleDeferred systemContext 1 payer (delayedTrx delaySec) true

def openFoo : ChainOp := .native {} createFoo

def tableOps : List ChainOp :=
  [.dbStore systemContext 1 2 fooName 5 [1, 2, 3],
    .idxStore systemContext .index64 1 2 fooName 5 9,
    .dbUpdate systemContext (rowKey 0 5) 0 [1],
    .idxRemove systemContext .index64 (rowKey 0 5)]

theorem tableOps_billed : ∃ start opened sentDb db, genesis 7 [1, 2, 3] 0 = .ok start ∧
    start.applyOp delayRuntime openFoo = .ok opened ∧ opened.applyOp delayRuntime (sentBy fooName 3) = .ok sentDb ∧
    sentDb.applyOps delayRuntime tableOps = .ok db ∧
    db.resources.ramUsage fooName = 3303 ∧ db.billed delayRuntime.packing fooName = 3303 ∧
    db.resources.ramUsage producersAccountName ≠ db.billed delayRuntime.packing producersAccountName := by
  have hok : (genesis 7 [1, 2, 3] 0 >>= fun start => start.applyOp delayRuntime openFoo >>= fun opened =>
      opened.applyOp delayRuntime (sentBy fooName 3) >>= fun sentDb => sentDb.applyOps delayRuntime tableOps).map
      (fun db => (db.resources.ramUsage fooName, db.accounts.contains fooName,
        db.accounts.contains producersAccountName)) = .ok (3303, true, true) := by decide +kernel
  have hopen : (genesis 7 [1, 2, 3] 0 >>= fun start => start.applyOp delayRuntime openFoo).map
      (fun opened => (opened.generated.find? (senderKey systemAccountName 1)).isNone) = .ok true := by decide +kernel
  obtain ⟨db, hdb, hview⟩ := exists_of_map_ok hok
  obtain ⟨start, hg, hdb⟩ := bind_ok hdb
  obtain ⟨opened, ho, hdb⟩ := bind_ok hdb
  obtain ⟨sentDb, hsent, hs⟩ := bind_ok hdb
  obtain ⟨husage, hview⟩ := Prod.mk.inj hview
  obtain ⟨hfoo, hprods⟩ := Prod.mk.inj hview
  obtain ⟨opened', ho', hnone⟩ := exists_of_map_ok hopen
  obtain ⟨start', hg', ho'⟩ := bind_ok ho'
  rw [hg] at hg'
  cases hg'
  rw [ho] at ho'
  cases ho'
  have hnew : opened.NoReplacement (sentBy fooName 3) := Option.isNone_iff_eq_none.mp hnone
  have htables : ∀ d op, op ∈ tableOps → NoReplacement d op := by
    intro d op hop
    simp only [tableOps, List.mem_cons, List.not_mem_nil, or_false] at hop
    obtain rfl | rfl | rfl | rfl := hop <;> trivial
  have hbilled := ram_usage_is_what_rows_are_billed_for hg
    (ChainRun.applyOps (.step _ (.step openFoo .start trivial ho) hnew hsent) htables hs)
  have heq := (hbilled _ hfoo).2.mpr ⟨by decide, fun h => absurd h (by decide)⟩
  exact ⟨start, opened, sentDb, db, hg, ho, hsent, hs, husage, heq.symm.trans husage,
    fun he => ((hbilled _ hprods).2.mp he).1 rfl⟩

theorem replacement_not_refunded : ∃ start opened db, genesis 7 [1, 2, 3] 0 = .ok start ∧
    start.applyOps delayRuntime [openFoo, sentBy fooName 3] = .ok opened ∧
    opened.applyOp delayRuntime (sentBy fooName 4) = .ok db ∧ BilledFromGenesis [1, 2, 3] fooName ∧
    opened.accounts.contains fooName = true ∧
    opened.resources.ramUsage fooName = 3078 ∧ opened.billed delayRuntime.packing fooName = 3078 ∧
    db.resources.ramUsage fooName = 3450 ∧ db.billed delayRuntime.packing fooName = 3078 := by
  have hok : (genesis 7 [1, 2, 3] 0 >>= fun start => start.applyOps delayRuntime [openFoo, sentBy fooName 3] >>=
      fun opened => (opened.applyOp delayRuntime (sentBy fooName 4)).map fun db => (opened, db)).map (fun r =>
      ((r.1.accounts.contains fooName, r.1.resources.ramUsage fooName, r.1.billed delayRuntime.packing fooName),
        r.2.resources.ramUsage fooName, r.2.billed delayRuntime.packing fooName)) =
      .ok ((true, 3078, 3078), 3450, 3078) := by decide +kernel
  obtain ⟨r, hr, hview⟩ := exists_of_map_ok hok
  obtain ⟨start, hg, hr⟩ := bind_ok hr
  obtain ⟨opened, ho, hr⟩ := bind_ok hr
  obtain ⟨db, hs, hr⟩ := exists_of_map_ok hr
  rw [← hr] at hview
  obtain ⟨hbefore, hafter⟩ := Prod.mk.inj hview
  obtain ⟨hexists, hbefore⟩ := Prod.mk.inj hbefore
  obtain ⟨hu, hb⟩ := Prod.mk.inj hbefore
  obtain ⟨hu', hb'⟩ := Prod.mk.inj hafter
  exact ⟨start, opened, db, hg, ho, hs, ⟨by decide, fun h => absurd h (by decide)⟩, hexists, hu, hb, hu', hb'⟩

end Db

end XosChain
