import XosChain.ResourceLimits.TransactionContext

namespace XosChain.ResourceLimits

open Lib FlatMap

section

variable {v units m w x : ℕ}

lemma integerDivideCeil_mul_lt (hw : 0 < w) : integerDivideCeil x w * w < x + w := by
  have hmod := Nat.div_add_mod x w
  have hlt := Nat.mod_lt x hw
  rw [integerDivideCeil, add_mul, mul_comm (x / w)]
  split_ifs <;> omega

lemma le_integerDivideCeil_mul (hw : 0 < w) : x ≤ integerDivideCeil x w * w := by
  have hmod := Nat.div_add_mod x w
  have hlt := Nat.mod_lt x hw
  rw [integerDivideCeil, add_mul, mul_comm (x / w)]
  split_ifs <;> omega

lemma rounding (hw : 0 < w) (hp : w ≤ precision) (h : units + integerDivideCeil (v * w) precision ≤ m) :
    (v + integerDivideCeil (units * precision) w) * w / precision ≤ m := by
  have hc := integerDivideCeil_mul_lt (x := units * precision) hw
  have hu := le_integerDivideCeil_mul (x := v * w) (w := precision) (by decide)
  rw [← Nat.lt_succ_iff, Nat.div_lt_iff_lt_mul (by decide)]
  calc (v + integerDivideCeil (units * precision) w) * w
    _ = v * w + integerDivideCeil (units * precision) w * w := add_mul ..
    _ < v * w + (units * precision + w) := Nat.add_lt_add_left hc _
    _ ≤ integerDivideCeil (v * w) precision * precision + (units * precision + precision) := by omega
    _ = (units + integerDivideCeil (v * w) precision + 1) * precision := by ring
    _ ≤ (m + 1) * precision := Nat.mul_le_mul_right _ (by omega)

end

namespace Db

section

structure Charged (db : Db) (cpu net slot : ℕ) (first second : Time) (a : AccountName) (usage : ResourceUsage)
    (perDay : UsagePerDayAccumulator) : Prop where
  limits : ∃ l, db.getAccountLimitsXos a = .ok l ∧
    checkWeight usage.cpuUsage.valueEx db.config.accountCpuUsageAverageWindow db.state.virtualCpuLimit
      db.state.totalCpuWeight l.cpuWeight .txCpuUsageExceeded
      "authorizing account '${n}' has insufficient cpu resources for this transaction" = .ok () ∧
    checkWeight usage.netUsage.valueEx db.config.accountNetUsageAverageWindow db.state.virtualNetLimit
      db.state.totalNetWeight l.netWeight .txNetUsageExceeded
      "authorizing account '${n}' has insufficient net resources for this transaction" = .ok ()
  usage : ∃ u, db.usage.find? a = some u ∧
    u.netUsage.add net slot db.config.accountNetUsageAverageWindow = .ok usage.netUsage ∧
    u.cpuUsage.add cpu slot db.config.accountCpuUsageAverageWindow = .ok usage.cpuUsage ∧ usage.ramUsage = u.ramUsage
  perDay : ∃ u, db.usagePerDay.find? a = some u ∧ u.currentTime.val < first.val ∧
    perDay = u.record first second.secSinceEpoch 1

def charge (db : Db) (a : AccountName) (usage : ResourceUsage) (perDay : UsagePerDayAccumulator) : Db :=
  { db with usage := db.usage.set a usage, usagePerDay := db.usagePerDay.set a perDay }

variable {db d : Db} {a b : AccountName} {accounts : List AccountName} {cpu net slot i j : ℕ} {clock : ℕ → Time}
  {first second : Time} {usage usage' : ResourceUsage} {perDay perDay' : UsagePerDayAccumulator}

lemma billAccounts_cons_iff :
    db.billAccounts cpu net slot (a :: accounts) clock i = (.ok d, j) ↔
    ∃ usage perDay, db.Charged cpu net slot (clock i) (clock (i + 1)) a usage perDay ∧
      (db.charge a usage perDay).billAccounts cpu net slot accounts clock (i + 2) = (.ok d, j) := by
  constructor
  · intro h
    obtain ⟨l, db1, day, hl, hu, hday, htime, hw, h⟩ := billAccounts_cons_ok.mp h
    obtain ⟨u, n, c, hfind, hn, hc, rfl⟩ := updateUsage_ok.mp hu
    obtain ⟨row, hrow, hw⟩ := bind_ok hw
    obtain rfl : row = { u with netUsage := n, cpuUsage := c } := by
      rw [getRow_ok] at hrow
      exact Option.some.inj (hrow.symm.trans (find?_set_self _ _ _))
    obtain ⟨_, hcpu, hnet⟩ := bind_ok hw
    exact ⟨{ u with netUsage := n, cpuUsage := c }, day.record (clock i) (clock (i + 1)).secSinceEpoch 1,
      ⟨⟨l, hl, hcpu, hnet⟩, ⟨u, hfind, hn, hc, rfl⟩, ⟨day, hday, htime, rfl⟩⟩, h⟩
  · rintro ⟨usage, perDay, ⟨⟨l, hl, hcpu, hnet⟩, ⟨u, hu, hn, hc, hram⟩, ⟨day, hday, htime, rfl⟩⟩, h⟩
    obtain ⟨n, c, ram⟩ := usage
    obtain rfl : ram = u.ramUsage := hram
    refine billAccounts_cons_ok.mpr ⟨l, _, day, hl, updateUsage_ok.mpr ⟨u, _, _, hu, hn, hc, rfl⟩, hday, htime, ?_, h⟩
    exact result_bind.mpr ⟨_, getRow_ok.mpr (find?_set_self _ _ _), result_bind.mpr ⟨(), hcpu, hnet⟩⟩

lemma charged_charge (hne : a ≠ b) :
    (db.charge a usage perDay).Charged cpu net slot first second b usage' perDay' ↔
    db.Charged cpu net slot first second b usage' perDay' := by
  have hday : (db.usagePerDay.set a perDay).find? b = db.usagePerDay.find? b := find?_set_of_ne _ _ hne
  have husage : (db.usage.set a usage).find? b = db.usage.find? b := find?_set_of_ne _ _ hne
  have hlimits : (db.charge a usage perDay).getAccountLimitsXos b = db.getAccountLimitsXos b := by
    simp only [getAccountLimitsXos, getAccountLimits, charge, getRow, hday]
  constructor
  · rintro ⟨hl, hu, hd⟩
    rw [hlimits] at hl
    rw [charge, husage] at hu
    rw [charge, hday] at hd
    exact ⟨hl, hu, hd⟩
  · rintro ⟨hl, hu, hd⟩
    rw [← hlimits] at hl
    rw [← husage] at hu
    rw [← hday] at hd
    exact ⟨hl, hu, hd⟩

lemma billAccounts_ok_iff (hn : accounts.Nodup) :
    (∃ d j, db.billAccounts cpu net slot accounts clock i = (.ok d, j)) ↔
    ∀ p b, accounts[p]? = some b →
      ∃ usage perDay, db.Charged cpu net slot (clock (i + 2 * p)) (clock (i + 2 * p + 1)) b usage perDay := by
  induction accounts generalizing db i with
  | nil => exact iff_of_true ⟨db, i, rfl⟩ (by simp)
  | cons a accounts ih =>
    obtain ⟨ha, hn⟩ := List.nodup_cons.mp hn
    have hne : ∀ {p : ℕ} {b : AccountName}, accounts[p]? = some b → a ≠ b := by
      rintro p b hp rfl
      exact ha (List.mem_of_getElem? hp)
    constructor
    · rintro ⟨d, j, h⟩ p b hp
      obtain ⟨usage, perDay, hc, h⟩ := billAccounts_cons_iff.mp h
      cases p with
      | zero =>
        obtain rfl : a = b := by simpa using hp
        exact ⟨usage, perDay, hc⟩
      | succ p =>
        obtain ⟨usage', perDay', hc'⟩ := (ih hn).mp ⟨d, j, h⟩ p b (by simpa using hp)
        rw [charged_charge (hne (by simpa using hp))] at hc'
        refine ⟨usage', perDay', ?_⟩
        rw [show i + 2 * (p + 1) = i + 2 + 2 * p by ring]
        exact hc'
    · intro hall
      obtain ⟨usage, perDay, hc⟩ := hall 0 a rfl
      have hrest : ∃ d j, (db.charge a usage perDay).billAccounts cpu net slot accounts clock (i + 2) = (.ok d, j) := by
        refine (ih hn).mpr ?_
        intro p b hp
        obtain ⟨usage', perDay', hc'⟩ := hall (p + 1) b (by simpa using hp)
        rw [show i + 2 * (p + 1) = i + 2 + 2 * p by ring] at hc'
        exact ⟨usage', perDay', (charged_charge (hne hp)).mpr hc'⟩
      obtain ⟨d, j, h⟩ := hrest
      exact ⟨d, j, billAccounts_cons_iff.mpr ⟨usage, perDay, hc, h⟩⟩

end

def WeightOk (valueEx windowSize limit total : ℕ) (weight : ℤ) : Prop :=
  weight ≥ 0 → total > 0 → valueEx * windowSize / precision ≤ maxUseInWindow limit windowSize weight total

section

variable {v v' units windowSize limit total : ℕ} {weight : ℤ}

lemma checkWeight_ok_iff {code : Exception} {what : String} :
    checkWeight v windowSize limit total weight code what = .ok () ↔ WeightOk v windowSize limit total weight := by
  rw [checkWeight, WeightOk]
  split_ifs with h
  · rw [eosAssert_eq_ok]
    exact ⟨fun hle _ _ => hle, fun hle => hle h.1 h.2⟩
  · exact iff_of_true rfl fun hw ht => absurd ⟨hw, ht⟩ h

lemma WeightOk.mono (h : WeightOk v windowSize limit total weight) (hle : v' ≤ v) :
    WeightOk v' windowSize limit total weight := fun hw ht =>
  (Nat.div_le_div_right (Nat.mul_le_mul_right _ hle)).trans (h hw ht)

lemma weightOk_of_available {l : AccountResourceLimit} (hw0 : 0 < windowSize) (hwp : windowSize ≤ precision)
    (hl : accountLimit v windowSize limit total weight = .ok l) (hpos : 0 < units)
    (hu : 0 ≤ l.available → (units : ℤ) ≤ l.available) :
    WeightOk (v + integerDivideCeil (units * precision) windowSize) windowSize limit total weight := by
  intro hw ht
  rw [accountLimit_eq (by omega) rfl rfl] at hl
  obtain ⟨available, ha, hl⟩ := bind_ok hl
  obtain ⟨_, _, hl⟩ := bind_ok hl
  obtain ⟨_, _, hl⟩ := bind_ok hl
  cases hl
  have hle : units ≤ available := by simpa using hu
  refine rounding hw0 hwp ?_
  split_ifs at ha with hm
  · have hzero := Except.ok.inj ha
    omega
  · have hsub := (downgradeCast_ok.mp ha).2
    omega

end

end Db

namespace UsageAccumulator

def Fits (u : UsageAccumulator) (units windowSize : ℕ) : Prop :=
  units ≤ uint64Max - u.consumed ∧ integerDivideCeil (units * precision) windowSize ≤ uint64Max - u.valueEx

variable {u v : UsageAccumulator} {units slot windowSize : ℕ}

lemma add_lastOrdinal (h : u.add units slot windowSize = .ok v) : v.lastOrdinal = slot := by
  obtain ⟨-, w, hw, rfl⟩ := MovingAverage.add_ok_iff.mp h
  rw [MovingAverage.advance] at hw
  split_ifs at hw with hs
  · obtain ⟨_, hw⟩ := eosAssert_ok hw
    obtain ⟨_, _, hw⟩ := bind_ok hw
    cases hw
    rfl
  · cases hw
    exact not_not.mp hs

def plus (u : UsageAccumulator) (units windowSize : ℕ) : UsageAccumulator :=
  { u with
    consumed := (u.consumed + units) % 2 ^ 64
    valueEx := (u.valueEx + integerDivideCeil (units * precision) windowSize) % 2 ^ 64 }

lemma add_same_slot_iff (hs : u.lastOrdinal = slot) (hu : units < 2 ^ 32) :
    u.add units slot 172800 = .ok v ↔ u.Fits units 172800 ∧ v = u.plus units 172800 := by
  have hraw : units ≤ maxRawValue := hu.le.trans (by decide)
  have hadv : MovingAverage.advance precision u slot 172800 = .ok u := if_neg (not_not.mpr hs)
  refine MovingAverage.add_ok_iff.trans ⟨?_, ?_⟩
  · rintro ⟨⟨-, hfits⟩, a, ha, rfl⟩
    obtain rfl := Except.ok.inj (hadv.symm.trans ha)
    exact ⟨hfits, rfl⟩
  · rintro ⟨hfits, rfl⟩
    exact ⟨⟨hraw, hfits⟩, u, hadv, rfl⟩

end UsageAccumulator

namespace TransactionContext

section

variable {ctl : Control} {db : Db} {b b' : Bandwidth} {a : AccountName} {accounts : List AccountName}

lemma lowerNet_le (elastic : Bool) (limit : ℤ) : (b.lowerNet elastic limit).accountNetLimit ≤ b.accountNetLimit ∧
    (b.lowerNet elastic limit).accountCpuLimit = b.accountCpuLimit ∧
    (0 ≤ limit → (b.lowerNet elastic limit).accountNetLimit ≤ limit) := by
  rw [Bandwidth.lowerNet]
  split_ifs with h
  · exact ⟨min_le_left _ _, rfl, fun _ => min_le_right _ _⟩
  · exact ⟨le_rfl, rfl, fun h' => absurd h' h⟩

lemma lowerCpu_le (elastic : Bool) (limit : ℤ) : (b.lowerCpu elastic limit).accountCpuLimit ≤ b.accountCpuLimit ∧
    (b.lowerCpu elastic limit).accountNetLimit = b.accountNetLimit ∧
    (0 ≤ limit → (b.lowerCpu elastic limit).accountCpuLimit ≤ limit) := by
  rw [Bandwidth.lowerCpu]
  split_ifs with h
  · exact ⟨min_le_left _ _, rfl, fun _ => min_le_right _ _⟩
  · exact ⟨le_rfl, rfl, fun h' => absurd h' h⟩

def Bounds (ctl : Control) (db : Db) (b : Bandwidth) (a : AccountName) : Prop :=
  ∃ net cpu, db.getAccountNetLimitEx a (elastic ctl a) = .ok net ∧ db.getAccountCpuLimitEx a (elastic ctl a) = .ok cpu ∧
    (0 ≤ net.available → b.accountNetLimit ≤ net.available) ∧ (0 ≤ cpu.available → b.accountCpuLimit ≤ cpu.available)

lemma Bounds.mono (h : Bounds ctl db b a) (hn : b'.accountNetLimit ≤ b.accountNetLimit)
    (hc : b'.accountCpuLimit ≤ b.accountCpuLimit) : Bounds ctl db b' a := by
  obtain ⟨net, cpu, hnet, hcpu, hnle, hcle⟩ := h
  exact ⟨net, cpu, hnet, hcpu, fun h => hn.trans (hnle h), fun h => hc.trans (hcle h)⟩

lemma lower_ok (h : lower ctl db b a = .ok b') : b'.accountNetLimit ≤ b.accountNetLimit ∧
    b'.accountCpuLimit ≤ b.accountCpuLimit ∧ Bounds ctl db b' a := by
  obtain ⟨net, hnet, h⟩ := bind_ok h
  obtain ⟨cpu, hcpu, h⟩ := bind_ok h
  cases h
  obtain ⟨hn, hnc, hnb⟩ := lowerNet_le (b := b) (elastic ctl a) net.available
  obtain ⟨hc, hcn, hcb⟩ := lowerCpu_le (b := b.lowerNet (elastic ctl a) net.available) (elastic ctl a) cpu.available
  refine ⟨hcn.trans_le hn, hc.trans hnc.le, net, cpu, hnet, hcpu, ?_, hcb⟩
  intro h0
  rw [hcn]
  exact hnb h0

lemma foldlM_lower (h : accounts.foldlM (lower ctl db) b = .ok b') :
    b'.accountNetLimit ≤ b.accountNetLimit ∧ b'.accountCpuLimit ≤ b.accountCpuLimit ∧
      ∀ a ∈ accounts, Bounds ctl db b' a := by
  induction accounts generalizing b with
  | nil =>
    cases h
    exact ⟨le_rfl, le_rfl, by simp⟩
  | cons a accounts ih =>
    obtain ⟨b1, hstep, h⟩ := bind_ok h
    obtain ⟨hn, hc, hb⟩ := lower_ok hstep
    obtain ⟨hn', hc', hb'⟩ := ih h
    refine ⟨hn'.trans hn, hc'.trans hc, ?_⟩
    exact List.forall_mem_cons.mpr ⟨hb.mono hn' hc', hb'⟩

end

section

variable {ctx ctx' : TransactionContext} {ctl : Control} {db : Db} {clock : ℕ → Time} {i j : ℕ}

lemma checkNetUsage_ok (hs : ctl.skipTrxChecks = false) (h : ctx.checkNetUsage ctl = .ok ()) :
    ctx.netUsage ≤ ctx.eagerNetLimit := by
  by_contra hc
  rw [checkNetUsage, if_pos ⟨hs, not_le.mp hc⟩] at h
  split_ifs at h

lemma checkBilled_ok {billedUs : ℤ} (h : ctx.checkBilled billedUs = .ok ()) : billedUs ≤ ctx.objectiveDurationLimit := by
  rw [checkBilled] at h
  split_ifs at h
  all_goals exact eosAssert_eq_ok.mp h

lemma validateCpuUsageToBill_ok {billedUs : ℤ} (hs : ctl.skipTrxChecks = false)
    (h : ctx.validateCpuUsageToBill ctl billedUs true = .ok ()) : 0 ≤ billedUs ∧ billedUs ≤ ctx.objectiveDurationLimit := by
  rw [validateCpuUsageToBill, if_neg (by simp [hs])] at h
  obtain ⟨hmin, h⟩ := eosAssert_ok h
  exact ⟨(Int.natCast_nonneg _).trans (hmin rfl), checkBilled_ok h⟩

lemma limitToAccounts_le (ctx : TransactionContext) (b : Bandwidth) :
    (ctx.limitToAccounts b).eagerNetLimit ≤ ctx.netLimit ∧ (ctx.limitToAccounts b).eagerNetLimit ≤ b.accountNetLimit.toNat ∧
    (ctx.limitToAccounts b).objectiveDurationLimit ≤ ctx.objectiveDurationLimit ∧
    (ctx.limitToAccounts b).objectiveDurationLimit ≤ b.accountCpuLimit ∧
    (ctx.limitToAccounts b).billToAccounts = ctx.billToAccounts := by
  simp only [limitToAccounts]
  split_ifs <;> (refine ⟨?_, ?_, ?_, ?_, rfl⟩ <;> dsimp only at * <;> omega)

structure Passed (ctx ctx' : TransactionContext) (ctl : Control) (db : Db) : Prop where
  accounts : ctx'.billToAccounts = ctx.billToAccounts
  billed_le : (ctx'.billed : ℤ) ≤ ctx.objectiveDurationLimit
  netUsage_le : ctx'.netUsage ≤ ctx.netLimit
  affordable : ∃ b, (ctx'.billed : ℤ) ≤ b.accountCpuLimit ∧ ctx'.netUsage ≤ b.accountNetLimit.toNat ∧
    ∀ a ∈ ctx.billToAccounts.val, Bounds ctl db b a

lemma check_ok (hs : ctl.skipTrxChecks = false) (h : ctx.check ctl db clock i = (.ok ctx', j)) :
    Passed ctx ctx' ctl db := by
  obtain ⟨b, _, hlift, h⟩ := timed_bind.mp h
  obtain ⟨hb, rfl⟩ := timed_lift.mp hlift
  obtain ⟨_, _, hlift, h⟩ := timed_bind.mp h
  obtain ⟨hnet, rfl⟩ := timed_lift.mp hlift
  obtain ⟨time, _, htime, h⟩ := timed_bind.mp h
  obtain ⟨_, _, hlift, h⟩ := timed_bind.mp h
  obtain ⟨hcpu, rfl⟩ := timed_lift.mp hlift
  obtain rfl := Except.ok.inj (congrArg Prod.fst h)
  obtain ⟨hn, hnb, hc, hcb, hacc⟩ := limitToAccounts_le ctx b
  have hle := checkNetUsage_ok hs hnet
  obtain ⟨h0, hbilled⟩ := validateCpuUsageToBill_ok hs hcpu
  have hkeep : ∀ c : TransactionContext, (c.updateBilledCpuTime ctl time).objectiveDurationLimit = c.objectiveDurationLimit ∧
      (c.updateBilledCpuTime ctl time).netUsage = c.netUsage ∧
      (c.updateBilledCpuTime ctl time).billToAccounts = c.billToAccounts := by
    intro c
    rw [updateBilledCpuTime]
    split_ifs <;> exact ⟨rfl, rfl, rfl⟩
  obtain ⟨hobj, husage, hbill⟩ := hkeep (ctx.limitToAccounts b)
  rw [hobj] at hbilled
  have hcast : ∀ c : TransactionContext, 0 ≤ c.billedCpuTimeUs → (c.billed : ℤ) ≤ c.billedCpuTimeUs := by
    intro c hc
    rw [billed]
    omega
  have hbill' := (hcast _ h0).trans hbilled
  refine ⟨hbill.trans hacc, hbill'.trans hc, ?_, b, hbill'.trans hcb, ?_, (foldlM_lower hb).2.2⟩
  · rw [husage]
    exact hle.trans hn
  · rw [husage]
    exact hle.trans hnb

end

end TransactionContext

end XosChain.ResourceLimits
