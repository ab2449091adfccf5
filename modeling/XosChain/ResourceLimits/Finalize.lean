import XosChain.ResourceLimits.BlockCalls
import XosChain.ResourceLimits.BlockUsage

namespace XosChain.ResourceLimits

open Lib UsageAccumulator FlatMap

structure Block where
  calls : List Call
  inBlock : ∀ call ∈ calls, call.InBlock
  clock : ℕ → Time
  config : ChainConfig

namespace Block

def execute (b : Block) (db : Db) : Db := (Db.run b.clock 0 db b.calls).2

def finalize (b : Block) (db : Db) (blockNum : ℕ) : Result Db := (b.execute db).finalizeResources b.config blockNum

structure Accepted (bound : ℕ) (b : Block) : Prop where
  valid : b.config.validate = .ok ()
  net_le : b.config.maxBlockNetUsage ≤ bound

end Block

namespace Db

inductive Run (bound : ℕ) : Db → ℕ → Prop
  | start : Run bound initializeDatabase 1
  | block {db db' : Db} {n : ℕ} {b : Block} : Run bound db n → b.Accepted bound → b.finalize db (n + 1) = .ok db' →
    Run bound db' (n + 1)

structure LimitsInRange (db : Db) : Prop where
  cpu : db.config.cpuLimitParameters.max ≤ db.state.virtualCpuLimit ∧
    db.state.virtualCpuLimit ≤ 1000 * db.config.cpuLimitParameters.max
  net : db.config.netLimitParameters.max ≤ db.state.virtualNetLimit ∧
    db.state.virtualNetLimit ≤ 1000 * db.config.netLimitParameters.max

def PendingFits (db : Db) : Prop := LimitsFit db.limits db.pendingLimits.entries

def netUsageCap : ℕ := 155014656081

structure Metered (params : ElasticLimitParameters) (average : UsageAccumulator) (pending limit n : ℕ) : Prop where
  max_le : params.max ≤ netUsageCap
  pending_le : pending ≤ params.max
  value_le : average.valueEx ≤ 120 * 1291788800675000 - 119
  ordinal_le : average.lastOrdinal ≤ n
  consumed_le : average.consumed ≤ 2 ^ 40
  limit_le : limit ≤ 1000 * params.max

lemma Metered.meter_ok {params : ElasticLimitParameters} {average : UsageAccumulator} {pending limit n max : ℕ}
    (h : Metered params average pending limit n) (target : ℕ) (hm : max ≤ netUsageCap) :
    ∃ r, meter average pending (n + 1) limit (standardParameters target max) = .ok r ∧
      Metered (standardParameters target max) r.1 0 r.2 (n + 1) ∧ max ≤ r.2 := by
  have hp := h.pending_le.trans h.max_le
  have hl := h.limit_le
  have hmax := h.max_le
  have hv := h.value_le
  rw [netUsageCap] at hp hmax hm
  have hunits : pending ≤ 2 ^ 39 := by omega
  have hcap : average.valueEx ≤ decayCap := by
    rw [decayCap_eq]
    omega
  have hcurrent : limit ≤ uint64Max / 1000 := by
    rw [uint64Max_eq]
    omega
  obtain ⟨v, d, hv', hd, _, ho, hval, hc⟩ := add_ok hcap h.ordinal_le h.consumed_le hunits
  obtain ⟨l, hl', hge, hle⟩ := updateElasticLimit_ok v.average target hcurrent (by omega : max * 1000 < 2 ^ 64)
  have hcontrib : integerDivideCeil (pending * precision) blockPeriods ≤ 1291788800675000 :=
    integerDivideCeil_le (by rw [precision, blockPeriods]; omega)
  refine ⟨(v, l), result_bind.mpr ⟨v, hv', result_bind.mpr ⟨l, hl', rfl⟩⟩, ?_, hge⟩
  refine ⟨hm, Nat.zero_le _, ?_, ho.le, hc, hle⟩
  rw [hval]
  omega

structure Sound (db : Db) (n : ℕ) : Prop where
  exact : db.TotalsExact
  cpu : Metered db.config.cpuLimitParameters db.state.averageBlockCpuUsage db.state.pendingCpuUsage
    db.state.virtualCpuLimit n
  net : Metered db.config.netLimitParameters db.state.averageBlockNetUsage db.state.pendingNetUsage
    db.state.virtualNetLimit n

variable {db db' : Db} {n bound : ℕ} {b : Block}

lemma Sound.start : Sound initializeDatabase 1 where
  exact := ⟨rfl, rfl, rfl, ⟨Nat.zero_le _, Nat.zero_le _, Nat.zero_le _⟩, fun _ _ h => by cases h⟩
  cpu := by constructor <;> decide
  net := by constructor <;> decide

lemma Sound.execute (h : Sound db n) (b : Block) : Sound (b.execute db) n := by
  have hk : Kept db (b.execute db) := run_kept b.inBlock
  refine ⟨hk.exact h.exact, ?_, ?_⟩
  · rw [hk.config, hk.averageCpu, hk.virtualCpu]
    exact { h.cpu with pending_le := hk.pendingCpu h.cpu.pending_le }
  · rw [hk.config, hk.averageNet, hk.virtualNet]
    exact { h.net with pending_le := hk.pendingNet h.net.pending_le }

lemma Sound.finalize_iff (h : Sound db n) (hb : b.Accepted netUsageCap) :
    (∃ db', b.finalize db (n + 1) = .ok db') ↔ (b.execute db).PendingFits := by
  have hs := h.execute b
  have hcpu : b.config.maxBlockCpuUsage ≤ netUsageCap := b.config.cpu_lt.le.trans (by decide)
  obtain ⟨c, hc, _⟩ := hs.cpu.meter_ok _ hcpu
  obtain ⟨m, hm, _⟩ := hs.net.meter_ok _ hb.net_le
  exact (finalizeResources_iff hs.exact).trans ⟨And.left, fun hfit => ⟨hfit, ⟨c, hc⟩, m, hm⟩⟩

lemma Sound.finalize (h : Sound db n) (hb : b.Accepted netUsageCap) (hok : b.finalize db (n + 1) = .ok db') :
    Sound db' (n + 1) ∧ db'.LimitsInRange := by
  have hs := h.execute b
  have hf := finalizeResources_finalized hs.exact hok
  have hcpu : b.config.maxBlockCpuUsage ≤ netUsageCap := b.config.cpu_lt.le.trans (by decide)
  obtain ⟨c, hc, hcm, hcl⟩ := hs.cpu.meter_ok _ hcpu
  obtain ⟨m, hm, hmm, hml⟩ := hs.net.meter_ok _ hb.net_le
  obtain rfl := Except.ok.inj (hc.symm.trans hf.cpu)
  obtain rfl := Except.ok.inj (hm.symm.trans hf.net)
  rw [← hf.cpuPending] at hcm
  rw [← hf.netPending] at hmm
  refine ⟨⟨hf.exact, ?_, ?_⟩, ?_, ?_⟩
  · rw [hf.cpuParams]
    exact hcm
  · rw [hf.netParams]
    exact hmm
  · rw [hf.cpuParams]
    exact ⟨hcl, hcm.limit_le⟩
  · rw [hf.netParams]
    exact ⟨hml, hmm.limit_le⟩

lemma Run.sound (h : Run netUsageCap db n) : Sound db n := by
  induction h with
  | start => exact Sound.start
  | block _ hb hok ih => exact (ih.finalize hb hok).1

lemma Run.mono {bound' : ℕ} (hle : bound ≤ bound') (h : Run bound db n) : Run bound' db n := by
  induction h with
  | start => exact .start
  | block _ hb hok ih => exact .block ih ⟨hb.valid, hb.net_le.trans hle⟩ hok

section

def configOfNet (net : ℕ) (h : net < 2 ^ 64) : ChainConfig where
  maxBlockNetUsage := net
  targetBlockNetUsagePct := 1000
  maxTransactionNetUsage := 524288
  basePerTransactionNetUsage := 12
  contextFreeDiscountNetUsageNum := 20
  contextFreeDiscountNetUsageDen := 100
  maxBlockCpuUsage := 200000
  targetBlockCpuUsagePct := 1000
  maxTransactionCpuUsage := 150000
  minTransactionCpuUsage := 100
  maxAuthorityDepth := 6
  net_lt := h
  cpu_lt := by decide

def greedyBlock : Block where
  calls := [.addTransactionUsage ⟨[], nil_ascending⟩ 0 (netUsageCap + 1) 0]
  inBlock := by simp [Call.InBlock]
  clock := fun _ => ⟨0, Time.zero_fits⟩
  config := configOfNet (netUsageCap + 1) (by decide)

lemma greedyBlock_accepted (h : netUsageCap < bound) : greedyBlock.Accepted bound := ⟨rfl, h⟩

lemma greedyBlock_execute (db : Db) :
    greedyBlock.execute db = (db.outcome ((db.addPendingUsage 0 (netUsageCap + 1)).map (Response.done, ·))).2 := by
  simp only [Block.execute, greedyBlock, run]
  exact congrArg (fun r => (db.outcome r.1).2) (lift_map (db.addPendingUsage 0 (netUsageCap + 1)) (Response.done, ·) _ 0)

lemma addPendingUsage_pendingLimits {cpu net : ℕ} (h : db.addPendingUsage cpu net = .ok db') :
    db'.pendingLimits = db.pendingLimits := by
  obtain ⟨_, h⟩ := eosAssert_ok h
  obtain ⟨_, h⟩ := eosAssert_ok h
  cases h
  rfl

lemma greedyBlock_pendingLimits (db : Db) : (greedyBlock.execute db).pendingLimits = db.pendingLimits := by
  rw [greedyBlock_execute]
  cases h : db.addPendingUsage 0 (netUsageCap + 1) with
  | error e => rfl
  | ok d => exact addPendingUsage_pendingLimits h

lemma PendingFits.of_empty (he : db.TotalsExact) (hp : db.pendingLimits = empty) : db.PendingFits := by
  intro done hd
  rw [hp] at hd
  rw [List.prefix_nil.mp hd]
  exact he.fits

structure Greedy (db : Db) (n : ℕ) : Prop where
  exact : db.TotalsExact
  noPending : db.pendingLimits = empty
  max_eq : db.config.netLimitParameters.max = netUsageCap + 1
  ordinal : db.state.averageBlockNetUsage.lastOrdinal = n
  consumed : db.state.averageBlockNetUsage.consumed ≤ 2 ^ 40
  pendingNet : db.state.pendingNetUsage = 0
  pendingCpu : db.state.pendingCpuUsage = 0

lemma addPendingUsage_full {u : ℕ} (hn : db.state.pendingNetUsage = 0) (hc : db.state.pendingCpuUsage = 0)
    (hm : db.config.netLimitParameters.max = u) (hu : u < 2 ^ 64) :
    db.addPendingUsage 0 u = .ok { db with state := { db.state with pendingCpuUsage := 0, pendingNetUsage := u } } := by
  have hmod : (db.state.pendingNetUsage + u) % 2 ^ 64 = u := by
    rw [hn, Nat.zero_add, Nat.mod_eq_of_lt hu]
  have hzero : (db.state.pendingCpuUsage + 0) % 2 ^ 64 = 0 := by
    rw [hc, Nat.zero_mod]
  simp only [addPendingUsage, hmod, hzero]
  exact eosAssert_bind.mpr ⟨Nat.zero_le _, eosAssert_bind.mpr ⟨hm.ge, rfl⟩⟩

lemma Greedy.execute (h : Greedy db n) : (greedyBlock.execute db).state.pendingNetUsage = netUsageCap + 1 := by
  rw [greedyBlock_execute, addPendingUsage_full h.pendingNet h.pendingCpu h.max_eq (by decide)]
  rfl

lemma greedyBlock_finalize (he : db.TotalsExact) (hp : db.pendingLimits = empty)
    (hv : db.state.averageBlockNetUsage.valueEx ≤ decayCap) (ho : db.state.averageBlockNetUsage.lastOrdinal ≤ n)
    (hc : db.state.averageBlockNetUsage.consumed ≤ 2 ^ 40) (hu : (greedyBlock.execute db).state.pendingNetUsage ≤ 2 ^ 39)
    (hok : greedyBlock.finalize db (n + 1) = .ok db') :
    Greedy db' (n + 1) ∧ (db.state.averageBlockNetUsage.lastOrdinal = n →
      db'.state.averageBlockNetUsage.valueEx = db.state.averageBlockNetUsage.valueEx * 119 / 120 +
        integerDivideCeil ((greedyBlock.execute db).state.pendingNetUsage * precision) blockPeriods) := by
  have hk : Kept db (greedyBlock.execute db) := run_kept greedyBlock.inBlock
  have hf := finalizeResources_finalized (hk.exact he) hok
  have hnone := finalizeResources_noPending ((greedyBlock_pendingLimits db).trans hp) hok
  obtain ⟨v, d, hadd, _, hd, hord, hval, hcons⟩ := add_ok hv ho hc hu
  obtain ⟨w, hw, hr⟩ := bind_ok hf.net
  rw [hk.averageNet] at hw
  obtain rfl := Except.ok.inj (hadd.symm.trans hw)
  obtain ⟨l, _, hr⟩ := bind_ok hr
  have hv' := (Prod.mk.inj (Except.ok.inj hr)).1
  refine ⟨⟨hf.exact, hnone, ?_, hv' ▸ hord, hv' ▸ hcons, hf.netPending, hf.cpuPending⟩, ?_⟩
  · rw [hf.netParams]
    rfl
  · intro ho'
    rw [← hv', hval, hd ho']

lemma greedy_contribution : integerDivideCeil ((netUsageCap + 1) * precision) blockPeriods = 1291788800683334 := by
  decide +kernel

lemma greedy_grows (hb : netUsageCap < bound)
    (hall : ∀ db n, Run bound db n → (greedyBlock.execute db).PendingFits →
      ∃ db', greedyBlock.finalize db (n + 1) = .ok db') {k : ℕ} (hk : k ≤ decayCap + 1) :
    ∃ db n, Run bound db n ∧ Greedy db n ∧ k ≤ db.state.averageBlockNetUsage.valueEx := by
  have hfits : ∀ {db : Db}, db.TotalsExact → db.pendingLimits = empty → (greedyBlock.execute db).PendingFits :=
    fun {db} he hp => .of_empty ((run_kept greedyBlock.inBlock).exact he) ((greedyBlock_pendingLimits db).trans hp)
  induction k with
  | zero =>
    have hs := Sound.start
    obtain ⟨db', hok⟩ := hall _ _ .start (hfits hs.exact rfl)
    have hu : (greedyBlock.execute initializeDatabase).state.pendingNetUsage ≤ 2 ^ 39 := by decide +kernel
    have hg := greedyBlock_finalize hs.exact rfl (Nat.zero_le _) hs.net.ordinal_le hs.net.consumed_le hu hok
    exact ⟨db', 2, .block .start (greedyBlock_accepted hb) hok, hg.1, Nat.zero_le _⟩
  | succ k ih =>
    obtain ⟨db, n, hrun, hg, hle⟩ := ih (by omega)
    by_cases hlt : k < db.state.averageBlockNetUsage.valueEx
    · exact ⟨db, n, hrun, hg, hlt⟩
    · have hv : db.state.averageBlockNetUsage.valueEx ≤ decayCap := by omega
      obtain ⟨db', hok⟩ := hall db n hrun (hfits hg.exact hg.noPending)
      have hu : (greedyBlock.execute db).state.pendingNetUsage ≤ 2 ^ 39 := by
        rw [hg.execute, netUsageCap]
        decide
      obtain ⟨hg', hval⟩ := greedyBlock_finalize hg.exact hg.noPending hv hg.ordinal.le hg.consumed hu hok
      refine ⟨db', n + 1, .block hrun (greedyBlock_accepted hb) hok, hg', ?_⟩
      rw [hval hg.ordinal, hg.execute, greedy_contribution]
      rw [decayCap_eq] at hv
      omega

lemma greedy_halts (hb : netUsageCap < bound) :
    ∃ db n, Run bound db n ∧ (greedyBlock.execute db).PendingFits ∧ ∀ db', greedyBlock.finalize db (n + 1) ≠ .ok db' := by
  by_contra hnot
  push Not at hnot
  obtain ⟨db, n, hrun, hg, hle⟩ := greedy_grows hb hnot (k := decayCap + 1) le_rfl
  have hk : Kept db (greedyBlock.execute db) := run_kept greedyBlock.inBlock
  obtain ⟨db', hok⟩ := hnot db n hrun (.of_empty (hk.exact hg.exact) ((greedyBlock_pendingLimits db).trans hg.noPending))
  obtain ⟨w, hw, _⟩ := bind_ok (finalizeResources_finalized (hk.exact hg.exact) hok).net
  rw [hk.averageNet] at hw
  exact add_throws hle hg.ordinal hw

end

theorem finalizes_in_range_iff (bound : ℕ) :
    (∀ (db : Db) (n : ℕ) (b : Block), Run bound db n → b.Accepted bound →
      ((∃ db', b.finalize db (n + 1) = .ok db' ∧ db'.LimitsInRange) ↔ (b.execute db).PendingFits)) ↔
    bound ≤ 155014656081 := by
  constructor
  · intro h
    by_contra hb
    obtain ⟨db, n, hrun, hfits, hthrows⟩ := greedy_halts (not_le.mp hb)
    obtain ⟨db', hok, _⟩ := (h db n greedyBlock hrun (greedyBlock_accepted (not_le.mp hb))).mpr hfits
    exact hthrows db' hok
  · intro hb db n b hrun hacc
    have hs := (hrun.mono hb).sound
    have hacc' : b.Accepted netUsageCap := ⟨hacc.valid, hacc.net_le.trans hb⟩
    rw [← hs.finalize_iff hacc']
    exact ⟨fun ⟨db', hok, _⟩ => ⟨db', hok⟩, fun ⟨db', hok⟩ => ⟨db', hok, (hs.finalize hacc' hok).2⟩⟩

def largestNetBlock : Block where
  calls := []
  inBlock := by simp
  clock := fun _ => ⟨0, Time.zero_fits⟩
  config := configOfNet (2 ^ 64 - 1) (by decide)

theorem largestNetBlock_halts :
    largestNetBlock.config.validate = .ok () ∧
    ∃ db, largestNetBlock.finalize initializeDatabase 2 = .ok db ∧ ¬ db.LimitsInRange ∧
      ∀ db', largestNetBlock.finalize db 3 ≠ .ok db' := by
  refine ⟨rfl, ?_⟩
  have hrun : (largestNetBlock.finalize initializeDatabase 2).toOption.map (fun db =>
      (db.config.netLimitParameters.max, db.state.virtualNetLimit, (largestNetBlock.finalize db 3).toBool)) =
      some (2 ^ 64 - 1, 2 ^ 64 - 1000, false) := by
    decide +kernel
  cases hdb : largestNetBlock.finalize initializeDatabase 2 with
  | error e =>
    rw [hdb] at hrun
    cases hrun
  | ok db =>
    rw [hdb] at hrun
    obtain ⟨hmax, hlimit, hfail⟩ : db.config.netLimitParameters.max = 2 ^ 64 - 1 ∧
        db.state.virtualNetLimit = 2 ^ 64 - 1000 ∧ (largestNetBlock.finalize db 3).toBool = false := by
      simpa [Except.toOption] using hrun
    refine ⟨db, rfl, ?_, ?_⟩
    · intro h
      have hnet := h.net.1
      rw [hmax, hlimit] at hnet
      omega
    · intro db' hok
      rw [hok] at hfail
      cases hfail

end Db

end XosChain.ResourceLimits
