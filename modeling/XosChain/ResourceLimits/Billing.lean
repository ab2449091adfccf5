import XosChain.ResourceLimits.BillingChecks

namespace XosChain.ResourceLimits

open Lib FlatMap UsageAccumulator ResourceLimits.Db Option

namespace Db

structure Ready (db : Db) : Prop where
  cpuWindow : db.config.accountCpuUsageAverageWindow = 172800
  netWindow : db.config.accountNetUsageAverageWindow = 172800
  pendingCpu : db.state.pendingCpuUsage ≤ db.config.cpuLimitParameters.max
  pendingNet : db.state.pendingNetUsage ≤ db.config.netLimitParameters.max

def AtSlot (db : Db) (slot : ℕ) (a : AccountName) : Prop :=
  ∃ u, db.usage.find? a = some u ∧ u.netUsage.lastOrdinal = slot ∧ u.cpuUsage.lastOrdinal = slot

section

variable {db d : Db} {slot cpu net : ℕ} {a b : AccountName}

lemma AtSlot.set {u : ResourceUsage} (h : b ≠ a → db.AtSlot slot a) (hn : u.netUsage.lastOrdinal = slot)
    (hc : u.cpuUsage.lastOrdinal = slot) : AtSlot { db with usage := db.usage.set b u } slot a := by
  by_cases he : b = a
  · subst he
    exact ⟨u, find?_set_self _ _ _, hn, hc⟩
  · obtain ⟨v, hv, hv'⟩ := h he
    exact ⟨v, (find?_set_of_ne _ _ he).trans hv, hv'⟩

lemma updateUsage_atSlot (h : db.updateUsage cpu net slot b = .ok d) (ha : b ≠ a → db.AtSlot slot a) :
    d.AtSlot slot a := by
  obtain ⟨u, _, h⟩ := bind_ok h
  obtain ⟨n, hn, h⟩ := bind_ok h
  obtain ⟨c, hc, h⟩ := bind_ok h
  cases h
  exact .set ha (add_lastOrdinal hn) (add_lastOrdinal hc)

lemma updateAccountUsage_atSlot {accounts : List AccountName}
    (h : accounts.foldlM (fun db a => db.updateUsage 0 0 slot a) db = .ok d) (ha : a ∈ accounts ∨ db.AtSlot slot a) :
    d.AtSlot slot a := by
  induction accounts generalizing db with
  | nil =>
    cases h
    exact ha.resolve_left (by simp)
  | cons b accounts ih =>
    obtain ⟨db1, hstep, h⟩ := bind_ok h
    refine ih h ?_
    by_cases hb : b = a
    · exact .inr (updateUsage_atSlot hstep fun hne => absurd hb hne)
    · rcases ha with ha | ha
      · exact .inl ((List.mem_cons.mp ha).resolve_left (Ne.symm hb))
      · exact .inr (updateUsage_atSlot hstep fun _ => ha)

end

end Db

namespace TransactionContext

structure Prepared (slot : ℕ) (s : TransactionContext × Db) : Prop where
  ready : s.2.Ready
  net_lt : s.1.netLimit < 2 ^ 32
  cpu_lt : s.1.objectiveDurationLimit < 2 ^ 32
  net_le : s.2.state.pendingNetUsage + s.1.netLimit ≤ s.2.config.netLimitParameters.max
  cpu_le : s.2.state.pendingCpuUsage + s.1.objectiveDurationLimit ≤ s.2.config.cpuLimitParameters.max
  atSlot : ∀ a ∈ s.1.billToAccounts.val, s.2.AtSlot slot a

section

variable {ctx ctx' : TransactionContext} {ctl : Control} {db d : Db} {trx : Trx} {b : Bandwidth} {initial slot : ℕ}

lemma microseconds_le (n : ℕ) : microseconds n ≤ n := by
  rw [microseconds]
  split_ifs <;> omega

lemma limitToBlock_le (ctx : TransactionContext) (ctl : Control) (h : db.Ready) :
    (ctx.limitToBlock ctl db).netLimit < 2 ^ 32 ∧ (ctx.limitToBlock ctl db).objectiveDurationLimit < 2 ^ 32 ∧
    db.state.pendingNetUsage + (ctx.limitToBlock ctl db).netLimit ≤ db.config.netLimitParameters.max ∧
    db.state.pendingCpuUsage + (ctx.limitToBlock ctl db).objectiveDurationLimit ≤ db.config.cpuLimitParameters.max := by
  have hn := ctl.net_lt
  have hc := ctl.cpu_lt
  have hcp := h.pendingCpu
  have hnp := h.pendingNet
  have hcpu := microseconds_le db.getBlockCpuLimit
  have hblock : db.getBlockCpuLimit = db.config.cpuLimitParameters.max - db.state.pendingCpuUsage := by rw [getBlockCpuLimit, sub64, if_pos hcp]
  have hnet : db.getBlockNetLimit = db.config.netLimitParameters.max - db.state.pendingNetUsage := by rw [getBlockNetLimit, sub64, if_pos hnp]
  simp only [limitToBlock]
  split_ifs <;> refine ⟨?_, ?_, ?_, ?_⟩ <;> dsimp only <;> omega

lemma limitToHeader_le (ctx : TransactionContext) (trx : Trx) : (ctx.limitToHeader trx).netLimit ≤ ctx.netLimit ∧
    (ctx.limitToHeader trx).objectiveDurationLimit ≤ ctx.objectiveDurationLimit := by
  simp only [limitToHeader]
  split_ifs with hn hc hc <;> constructor <;> simp only [hn, hc, le_refl]

lemma limitEagerly_keeps (ctx : TransactionContext) (ctl : Control) (b : Bandwidth) :
    (ctx.limitEagerly ctl b).netLimit = ctx.netLimit ∧
    (ctx.limitEagerly ctl b).objectiveDurationLimit = ctx.objectiveDurationLimit ∧
    (ctx.limitEagerly ctl b).billToAccounts = ctx.billToAccounts := by
  simp only [limitEagerly]
  split_ifs <;> exact ⟨rfl, rfl, rfl⟩

lemma addNetUsage_eq {u : ℕ} (h : ctx.addNetUsage ctl u = .ok ctx') : ∃ netUsage, ctx' = { ctx with netUsage } := by
  obtain ⟨_, _, h⟩ := bind_ok h
  exact ⟨_, (Except.ok.inj h).symm⟩

lemma addInitial_eq (h : ctx.addInitial ctl initial = .ok ctx') : ∃ netUsage, ctx' = { ctx with netUsage } := by
  rw [addInitial] at h
  split_ifs at h
  · exact addNetUsage_eq h
  · exact ⟨ctx.netUsage, (Except.ok.inj h).symm⟩

lemma init_prepared (hr : db.Ready) (h : ctx.init ctl trx initial slot db = .ok (ctx', d)) : Prepared slot (ctx', d) := by
  obtain ⟨_, _, h⟩ := bind_ok h
  obtain ⟨db1, hu, h⟩ := bind_ok h
  obtain ⟨b, _, h⟩ := bind_ok h
  obtain ⟨ctx1, hi, h⟩ := bind_ok h
  cases h
  obtain ⟨netUsage, rfl⟩ := addInitial_eq hi
  have hat := fun a ha => updateAccountUsage_atSlot (a := a) hu (.inl ha)
  obtain ⟨usage, rfl⟩ := updateAccountUsage_eq hu
  obtain ⟨hn, hc, hnp, hcp⟩ := limitToBlock_le ctx ctl hr
  obtain ⟨hnh, hch⟩ := limitToHeader_le (ctx.limitToBlock ctl db) trx
  obtain ⟨hne, hce, hae⟩ := limitEagerly_keeps
    { (ctx.limitToBlock ctl db).limitToHeader trx with billToAccounts := trx.authorizers } ctl b
  refine ⟨{ hr with }, ?_, ?_, ?_, ?_, ?_⟩
  · exact (hne.trans_le hnh).trans_lt hn
  · exact (hce.trans_le hch).trans_lt hc
  · exact (Nat.add_le_add_left (hne.trans_le hnh) _).trans hnp
  · exact (Int.add_le_add_left (hce.trans_le hch) _).trans hcp
  · intro a ha
    exact hat a (hae ▸ ha)

end

section

variable {ctl : Control} {s t : TransactionContext × Db} {slot : ℕ}

lemma Step.prepared (h : Step ctl s t) (hp : Prepared slot s) : Prepared slot t := by
  cases h with
  | netUsage u h =>
    obtain ⟨netUsage, rfl⟩ := addNetUsage_eq h
    exact { hp with }
  | timer pseudoStart => exact { hp with }
  | @ram ctx db db' account delta h =>
    rw [addPendingRamUsage] at h
    split_ifs at h
    · cases h
      exact hp
    · obtain ⟨u, hu, h⟩ := bind_ok h
      iterate 2 obtain ⟨_, h⟩ := eosAssert_ok h
      cases h
      refine { hp with ready := { hp.ready with }, atSlot := ?_ }
      intro a ha
      obtain ⟨v, hv, hn, hc⟩ := hp.atSlot a ha
      by_cases he : account = a
      · subst he
        obtain rfl := some.inj ((getRow_ok.mp hu).symm.trans hv)
        exact ⟨_, find?_set_self _ _ _, hn, hc⟩
      · exact ⟨v, (find?_set_of_ne _ _ he).trans hv, hn, hc⟩
  | @initializeAccount ctx db db' account h =>
    obtain ⟨_, _, h⟩ := bind_ok h
    obtain ⟨_, hu, h⟩ := bind_ok h
    obtain ⟨_, _, h⟩ := bind_ok h
    cases h
    obtain ⟨hnone, rfl⟩ := createRow_ok hu
    refine { hp with ready := { hp.ready with }, atSlot := ?_ }
    intro a ha
    obtain ⟨v, hv, hat⟩ := hp.atSlot a ha
    have hne : account ≠ a := by
      rintro rfl
      rw [hnone] at hv
      cases hv
    exact ⟨v, (find?_set_of_ne _ _ hne).trans hv, hat⟩
  | setAccountLimits account l h =>
    obtain ⟨_, _, h⟩ := bind_ok h
    cases h
    exact { hp with ready := { hp.ready with } }

def Steps : TransactionContext × Db → TransactionContext × Db → Prop :=
  Relation.ReflTransGen fun s t => ∃ ctl, Step ctl s t

lemma Steps.prepared (h : Steps s t) (hp : Prepared slot s) : Prepared slot t := by
  induction h with
  | refl => exact hp
  | tail _ hstep ih =>
    obtain ⟨ctl, hstep⟩ := hstep
    exact hstep.prepared ih

end

structure Payable (ctl : Control) (db : Db) (cpu net : ℕ) (time : Time) (a : AccountName) : Prop where
  later : ∀ u, db.usagePerDay.find? a = some u → u.currentTime.val < time.val
  fits : ∀ u, db.usage.find? a = some u → u.netUsage.Fits net 172800 ∧ u.cpuUsage.Fits cpu 172800
  net : net = 0 ∨ elastic ctl a = false → ∀ u l, db.usage.find? a = some u → db.getAccountLimitsXos a = .ok l →
    WeightOk (u.netUsage.plus net 172800).valueEx 172800 db.state.virtualNetLimit db.state.totalNetWeight l.netWeight
  cpu : cpu = 0 ∨ elastic ctl a = false → ∀ u l, db.usage.find? a = some u → db.getAccountLimitsXos a = .ok l →
    WeightOk (u.cpuUsage.plus cpu 172800).valueEx 172800 db.state.virtualCpuLimit db.state.totalCpuWeight l.cpuWeight

section

variable {ctl : Control} {db : Db} {b : Bandwidth} {a : AccountName} {cpu net slot : ℕ} {first second : Time}

lemma weightOk_plus {u : UsageAccumulator} {units limit total : ℕ} {weight : ℤ} {l : AccountResourceLimit}
    (hl : accountLimit u.valueEx 172800 limit total weight = .ok l) (hpos : 0 < units)
    (hu : 0 ≤ l.available → (units : ℤ) ≤ l.available) :
    WeightOk (u.plus units 172800).valueEx 172800 limit total weight :=
  (weightOk_of_available (by decide) (by decide) hl hpos hu).mono (Nat.mod_le _ _)

lemma charged_iff (hr : db.Ready) (hat : db.AtSlot slot a) (hb : Bounds ctl db b a) (hnet : net < 2 ^ 32)
    (hcpu : cpu < 2 ^ 32) (hn : net ≤ b.accountNetLimit.toNat) (hc : (cpu : ℤ) ≤ b.accountCpuLimit) :
    (∃ usage perDay, db.Charged cpu net slot first second a usage perDay) ↔ Payable ctl db cpu net first a := by
  obtain ⟨u, hu, hnslot, hcslot⟩ := hat
  obtain ⟨n, c, hqn, hqc, hnle, hcle⟩ := hb
  obtain ⟨_, hrow, hqn⟩ := bind_ok hqn
  obtain ⟨l, hl, hqn⟩ := bind_ok hqn
  obtain ⟨_, hrow', hqc⟩ := bind_ok hqc
  obtain ⟨_, hl', hqc⟩ := bind_ok hqc
  obtain rfl := some.inj (hu.symm.trans (getRow_ok.mp hrow))
  obtain rfl := some.inj (hu.symm.trans (getRow_ok.mp hrow'))
  obtain rfl := Except.ok.inj (hl.symm.trans hl')
  obtain ⟨_, _, hday⟩ := bind_ok hl
  obtain ⟨day, hday, _⟩ := bind_ok hday
  rw [getRow_ok] at hday
  rw [hr.netWindow] at hqn
  rw [hr.cpuWindow] at hqc
  constructor
  · rintro ⟨usage, perDay, ⟨l1, hl1, hwc, hwn⟩, ⟨u1, hu1, han, hac, -⟩, ⟨day1, hday1, hlater, -⟩⟩
    obtain rfl := Except.ok.inj (hl.symm.trans hl1)
    obtain rfl := some.inj (hu.symm.trans hu1)
    obtain rfl := some.inj (hday.symm.trans hday1)
    rw [hr.netWindow] at han hwn
    rw [hr.cpuWindow] at hac hwc
    obtain ⟨hfn, hpn⟩ := (add_same_slot_iff hnslot hnet).mp han
    obtain ⟨hfc, hpc⟩ := (add_same_slot_iff hcslot hcpu).mp hac
    rw [checkWeight_ok_iff, hpn] at hwn
    rw [checkWeight_ok_iff, hpc] at hwc
    constructor
    · intro v hv
      exact some.inj (hday.symm.trans hv) ▸ hlater
    · intro v hv
      exact some.inj (hu.symm.trans hv) ▸ ⟨hfn, hfc⟩
    · intro _ v l' hv hlv
      obtain rfl := some.inj (hu.symm.trans hv)
      exact Except.ok.inj (hl.symm.trans hlv) ▸ hwn
    · intro _ v l' hv hlv
      obtain rfl := some.inj (hu.symm.trans hv)
      exact Except.ok.inj (hl.symm.trans hlv) ▸ hwc
  · intro hp
    obtain ⟨hfn, hfc⟩ := hp.fits u hu
    have hwn : WeightOk (u.netUsage.plus net 172800).valueEx 172800 db.state.virtualNetLimit db.state.totalNetWeight
        l.netWeight := by
      by_cases hcase : net = 0 ∨ elastic ctl a = false
      · exact hp.net hcase u l hu hl
      · obtain ⟨hpos, hel⟩ := not_or.mp hcase
        rw [Bool.eq_true_of_not_eq_false hel] at hqn
        exact weightOk_plus hqn (Nat.pos_of_ne_zero hpos) fun h0 => by have := hnle h0; omega
    have hwc : WeightOk (u.cpuUsage.plus cpu 172800).valueEx 172800 db.state.virtualCpuLimit db.state.totalCpuWeight
        l.cpuWeight := by
      by_cases hcase : cpu = 0 ∨ elastic ctl a = false
      · exact hp.cpu hcase u l hu hl
      · obtain ⟨hpos, hel⟩ := not_or.mp hcase
        rw [Bool.eq_true_of_not_eq_false hel] at hqc
        exact weightOk_plus hqc (Nat.pos_of_ne_zero hpos) fun h0 => hc.trans (hcle h0)
    refine ⟨{ u with netUsage := u.netUsage.plus net 172800, cpuUsage := u.cpuUsage.plus cpu 172800 }, _,
      ⟨l, hl, ?_, ?_⟩, ⟨u, hu, ?_, ?_, rfl⟩, ⟨day, hday, hp.later day hday, rfl⟩⟩
    · rw [hr.cpuWindow]
      exact checkWeight_ok_iff.mpr hwc
    · rw [hr.netWindow]
      exact checkWeight_ok_iff.mpr hwn
    · rw [hr.netWindow]
      exact (add_same_slot_iff hnslot hnet).mpr ⟨hfn, rfl⟩
    · rw [hr.cpuWindow]
      exact (add_same_slot_iff hcslot hcpu).mpr ⟨hfc, rfl⟩

end

section

def WithinBlock (d : Db) : Prop :=
  d.state.pendingCpuUsage ≤ d.config.cpuLimitParameters.max ∧ d.state.pendingNetUsage ≤ d.config.netLimitParameters.max ∧
  d.getBlockCpuLimit + d.state.pendingCpuUsage = d.config.cpuLimitParameters.max ∧
  d.getBlockNetLimit + d.state.pendingNetUsage = d.config.netLimitParameters.max

lemma addPendingUsage_within {db d : Db} {cpu net : ℕ} (h : db.addPendingUsage cpu net = .ok d) : WithinBlock d := by
  obtain ⟨hc, h⟩ := eosAssert_ok h
  obtain ⟨hn, h⟩ := eosAssert_ok h
  cases h
  refine ⟨hc, hn, ?_, ?_⟩
  · rw [getBlockCpuLimit, sub64, if_pos hc]
    exact Nat.sub_add_cancel hc
  · rw [getBlockNetLimit, sub64, if_pos hn]
    exact Nat.sub_add_cancel hn

lemma addPendingUsage_ok {db : Db} {cpu net : ℕ}
    (hc : db.state.pendingCpuUsage + cpu ≤ db.config.cpuLimitParameters.max)
    (hn : db.state.pendingNetUsage + net ≤ db.config.netLimitParameters.max) : ∃ d, db.addPendingUsage cpu net = .ok d := by
  have hmod : ∀ {x y : ℕ}, x ≤ y → x % 2 ^ 64 ≤ y := fun hx => (Nat.mod_le _ _).trans hx
  exact ⟨_, eosAssert_bind.mpr ⟨hmod hc, eosAssert_bind.mpr ⟨hmod hn, rfl⟩⟩⟩

variable {ctl ctl' : Control} {trx : Trx} {initial slot i j : ℕ} {db0 db1 db : Db}
  {ctx0 ctx1 ctx ctx' : TransactionContext} {clock : ℕ → Time}

theorem billing_after_checks_iff (hr : db0.Ready) (hinit : ctx0.init ctl trx initial slot db0 = .ok (ctx1, db1))
    (hsteps : Steps (ctx1, db1) (ctx, db)) (hskip : ctl'.skipTrxChecks = false)
    (hcheck : ctx.check ctl' db clock i = (.ok ctx', j)) :
    (∃ d k, db.addTransactionUsage ctx'.billToAccounts ctx'.billed ctx'.netUsage slot clock j = (.ok d, k) ∧ WithinBlock d) ↔
    ∀ p a, ctx'.billToAccounts.val[p]? = some a →
      Payable ctl' db ctx'.billed ctx'.netUsage (clock (j + 2 * p)) a := by
  have hp := hsteps.prepared (init_prepared hr hinit)
  obtain ⟨hacc, hbilled, hnet, b, hcb, hnb, hbounds⟩ := check_ok hskip hcheck
  have hn32 : ctx'.netUsage < 2 ^ 32 := hnet.trans_lt hp.net_lt
  have hc32 : ctx'.billed < 2 ^ 32 := by
    have hlt := hp.cpu_lt
    dsimp only at hlt
    omega
  have hnodup : ctx'.billToAccounts.val.Nodup := ctx'.billToAccounts.property.imp fun hlt => ne_of_lt hlt
  have hbill : (∃ d k, db.billAccounts ctx'.billed ctx'.netUsage slot ctx'.billToAccounts.val clock j = (.ok d, k)) ↔
      ∀ p a, ctx'.billToAccounts.val[p]? = some a →
        Payable ctl' db ctx'.billed ctx'.netUsage (clock (j + 2 * p)) a := by
    rw [billAccounts_ok_iff hnodup]
    refine forall_congr' fun p => forall_congr' fun a => forall_congr' fun ha => ?_
    have hmem : a ∈ ctx.billToAccounts.val := hacc ▸ List.mem_of_getElem? ha
    exact charged_iff hp.ready (hp.atSlot a hmem) (hbounds a hmem) hn32 hc32 hnb hcb
  rw [← hbill]
  constructor
  · rintro ⟨d, k, h, -⟩
    obtain ⟨d', k', hb, _⟩ := timed_bind.mp h
    exact ⟨d', k', hb⟩
  · rintro ⟨d, k, hb⟩
    have hnle := hp.net_le
    have hcle := hp.cpu_le
    obtain ⟨⟨usage, perDay, rfl⟩, -⟩ := billAccounts_eq hb
    dsimp only at hnle hcle
    have hpending : ∃ d', addPendingUsage { db with usage, usagePerDay := perDay } ctx'.billed ctx'.netUsage = .ok d' :=
      addPendingUsage_ok (by dsimp only; omega) (by dsimp only; omega)
    obtain ⟨d', hd'⟩ := hpending
    exact ⟨d', k, timed_bind.mpr ⟨_, k, hb, timed_lift.mpr ⟨hd', rfl⟩⟩, addPendingUsage_within hd'⟩

end

section

def defaultControl : Control where
  maxTransactionNetUsage := 524288
  maxTransactionCpuUsage := 150000
  minTransactionCpuUsage := 100
  netUsageLeeway := 500
  isProducingBlock := false
  resourceGreylist := []
  skipTrxChecks := false
  net_lt := defaultNet_lt
  cpu_lt := defaultCpu_lt

def smallTrx : Trx := ⟨0, 0, ⟨[1], one_ascending⟩⟩

def instant : ℕ → Time := fun _ => ⟨5, Time.five_fits⟩

def started (db : Db) : TransactionContext × Db :=
  match init { billedCpuTimeUs := 200, explicitBilledCpuTime := true } defaultControl smallTrx 100 1 db with
  | .ok s => s
  | .error _ => ({}, db)

def checked (s : TransactionContext × Db) : TransactionContext :=
  match (s.1.check defaultControl s.2 instant 0).1 with
  | .ok ctx => ctx
  | .error _ => {}

def billedOnce : Db :=
  match (initializeDatabase.initializeAccount 1 : Result Db) with
  | .ok db =>
    match ((started db).1.finalize defaultControl 1 (started db).2 instant 0).1 with
    | .ok db => db
    | .error _ => {}
  | .error _ => {}

lemma billedOnce_ready : billedOnce.Ready := by constructor <;> decide +kernel

lemma started_init : init { billedCpuTimeUs := 200, explicitBilledCpuTime := true } defaultControl smallTrx 100 1 billedOnce =
    .ok (started billedOnce) := by decide +kernel

lemma checked_check : (started billedOnce).1.check defaultControl (started billedOnce).2 instant 0 =
    (.ok (checked (started billedOnce)), 1) := by decide +kernel

theorem sameInstant_bill_throws :
    billedOnce.Ready ∧
    init { billedCpuTimeUs := 200, explicitBilledCpuTime := true } defaultControl smallTrx 100 1 billedOnce =
      .ok (started billedOnce) ∧
    (started billedOnce).1.check defaultControl (started billedOnce).2 instant 0 = (.ok (checked (started billedOnce)), 1) ∧
    ((started billedOnce).2.addTransactionUsage (checked (started billedOnce)).billToAccounts
      (checked (started billedOnce)).billed (checked (started billedOnce)).netUsage 1 instant 1).1 =
      .error ⟨.resourceLimitException, "new time cannot be less than the previous time"⟩ :=
  ⟨billedOnce_ready, started_init, checked_check, by decide +kernel⟩

theorem sameInstant_billing_iff :
    (∃ d k, (started billedOnce).2.addTransactionUsage (checked (started billedOnce)).billToAccounts
      (checked (started billedOnce)).billed (checked (started billedOnce)).netUsage 1 instant 1 = (.ok d, k) ∧
      WithinBlock d) ↔
    ∀ p a, (checked (started billedOnce)).billToAccounts.val[p]? = some a →
      Payable defaultControl (started billedOnce).2 (checked (started billedOnce)).billed
        (checked (started billedOnce)).netUsage (instant (1 + 2 * p)) a :=
  billing_after_checks_iff billedOnce_ready started_init .refl rfl checked_check

end

end TransactionContext

end XosChain.ResourceLimits
