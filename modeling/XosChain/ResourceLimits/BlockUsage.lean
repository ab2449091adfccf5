import XosChain.ResourceLimits.MovingAverage
import XosChain.ResourceLimits.Totals

namespace XosChain.ResourceLimits

open Lib

structure ChainConfig where
  maxBlockNetUsage : ℕ
  targetBlockNetUsagePct : ℕ
  maxTransactionNetUsage : ℕ
  basePerTransactionNetUsage : ℕ
  contextFreeDiscountNetUsageNum : ℕ
  contextFreeDiscountNetUsageDen : ℕ
  maxBlockCpuUsage : ℕ
  targetBlockCpuUsagePct : ℕ
  maxTransactionCpuUsage : ℕ
  minTransactionCpuUsage : ℕ
  maxAuthorityDepth : ℕ
  net_lt : maxBlockNetUsage < 2 ^ 64
  cpu_lt : maxBlockCpuUsage < 2 ^ 32

namespace ChainConfig

def percent100 : ℕ := 10000
def percent1 : ℕ := 100
def minNetUsageDelta : ℕ := 10 * 1024

def validate (c : ChainConfig) : Result Unit := do
  eosAssert (c.targetBlockNetUsagePct ≤ percent100) .actionValidateException
    "target block net usage percentage cannot exceed 100%"
  eosAssert (c.targetBlockNetUsagePct ≥ percent1 / 10) .actionValidateException
    "target block net usage percentage must be at least 0.1%"
  eosAssert (c.targetBlockCpuUsagePct ≤ percent100) .actionValidateException
    "target block cpu usage percentage cannot exceed 100%"
  eosAssert (c.targetBlockCpuUsagePct ≥ percent1 / 10) .actionValidateException
    "target block cpu usage percentage must be at least 0.1%"
  eosAssert (c.maxTransactionNetUsage < c.maxBlockNetUsage) .actionValidateException
    "max transaction net usage must be less than max block net usage"
  eosAssert (c.maxTransactionCpuUsage < c.maxBlockCpuUsage) .actionValidateException
    "max transaction cpu usage must be less than max block cpu usage"
  eosAssert (c.basePerTransactionNetUsage < c.maxTransactionNetUsage) .actionValidateException
    "base net usage per transaction must be less than the max transaction net usage"
  eosAssert (sub32 c.maxTransactionNetUsage c.basePerTransactionNetUsage ≥ minNetUsageDelta) .actionValidateException
    "max transaction net usage must be at least ${delta} bytes larger than base net usage per transaction"
  eosAssert (c.contextFreeDiscountNetUsageDen > 0) .actionValidateException
    "net usage discount ratio for context free data cannot have a 0 denominator"
  eosAssert (c.contextFreeDiscountNetUsageNum ≤ c.contextFreeDiscountNetUsageDen) .actionValidateException
    "net usage discount ratio for context free data cannot exceed 1"
  eosAssert (c.minTransactionCpuUsage ≤ c.maxTransactionCpuUsage) .actionValidateException
    "min transaction cpu usage cannot exceed max transaction cpu usage"
  eosAssert (c.maxTransactionCpuUsage < sub32 c.maxBlockCpuUsage c.minTransactionCpuUsage) .actionValidateException
    "max transaction cpu usage must be at less than the difference between the max block cpu usage and the min transaction cpu usage"
  eosAssert (1 ≤ c.maxAuthorityDepth) .actionValidateException "max authority depth should be at least 1"

end ChainConfig

def eosPercent (value percentage : ℕ) : ℕ := value * percentage % 2 ^ 64 / ChainConfig.percent100

namespace Db

def cpuParameters (c : ChainConfig) : ElasticLimitParameters :=
  standardParameters (eosPercent c.maxBlockCpuUsage c.targetBlockCpuUsagePct) c.maxBlockCpuUsage

def netParameters (c : ChainConfig) : ElasticLimitParameters :=
  standardParameters (eosPercent c.maxBlockNetUsage c.targetBlockNetUsagePct) c.maxBlockNetUsage

def finalizeResources (db : Db) (c : ChainConfig) (blockNum : ℕ) : Result Db := do
  let db ← db.processAccountLimitUpdates
  let db ← db.setBlockParameters (cpuParameters c) (netParameters c)
  processBlockUsage { db with freeResourceLimitPerDay := 1000 } blockNum

end Db

def meter (average : UsageAccumulator) (units blockNum limit : ℕ) (params : ElasticLimitParameters) :
    Result (UsageAccumulator × ℕ) := do
  let average ← average.add units blockNum params.periods
  let limit ← updateElasticLimit limit average.average params
  pure (average, limit)

namespace Db

variable {db db' : Db} {c : ChainConfig} {n : ℕ}

lemma processBlockUsage_iff :
    db.processBlockUsage n = .ok db' ↔
    ∃ cpu net, meter db.state.averageBlockCpuUsage db.state.pendingCpuUsage n db.state.virtualCpuLimit
        db.config.cpuLimitParameters = .ok cpu ∧
      meter db.state.averageBlockNetUsage db.state.pendingNetUsage n db.state.virtualNetLimit
        db.config.netLimitParameters = .ok net ∧
      db' =
        { db with
          state :=
            { db.state with
              averageBlockCpuUsage := cpu.1
              virtualCpuLimit := cpu.2
              pendingCpuUsage := 0
              averageBlockNetUsage := net.1
              virtualNetLimit := net.2
              pendingNetUsage := 0 } } := by
  constructor
  · intro h
    obtain ⟨cpu, hcpu, h⟩ := bind_ok h
    obtain ⟨cpuLimit, hcpuLimit, h⟩ := bind_ok h
    obtain ⟨net, hnet, h⟩ := bind_ok h
    obtain ⟨netLimit, hnetLimit, h⟩ := bind_ok h
    refine ⟨(cpu, cpuLimit), (net, netLimit), ?_, ?_, (Except.ok.inj h).symm⟩
    · exact result_bind.mpr ⟨cpu, hcpu, result_bind.mpr ⟨cpuLimit, hcpuLimit, rfl⟩⟩
    · exact result_bind.mpr ⟨net, hnet, result_bind.mpr ⟨netLimit, hnetLimit, rfl⟩⟩
  · rintro ⟨cpu, net, hc, hn, rfl⟩
    obtain ⟨a, ha, hc⟩ := bind_ok hc
    obtain ⟨l, hl, hc⟩ := bind_ok hc
    obtain ⟨b, hb, hn⟩ := bind_ok hn
    obtain ⟨k, hk, hn⟩ := bind_ok hn
    cases hc
    cases hn
    exact result_bind.mpr ⟨a, ha, result_bind.mpr ⟨l, hl, result_bind.mpr ⟨b, hb, result_bind.mpr ⟨k, hk, rfl⟩⟩⟩⟩

lemma setBlockParameters_standard (c : ChainConfig) :
    db.setBlockParameters (cpuParameters c) (netParameters c) =
    .ok { db with config :=
      { db.config with cpuLimitParameters := cpuParameters c, netLimitParameters := netParameters c } } := rfl

structure Finalized (db : Db) (c : ChainConfig) (n : ℕ) (db' : Db) : Prop where
  exact : db'.TotalsExact
  cpu : meter db.state.averageBlockCpuUsage db.state.pendingCpuUsage n db.state.virtualCpuLimit (cpuParameters c) =
    .ok (db'.state.averageBlockCpuUsage, db'.state.virtualCpuLimit)
  net : meter db.state.averageBlockNetUsage db.state.pendingNetUsage n db.state.virtualNetLimit (netParameters c) =
    .ok (db'.state.averageBlockNetUsage, db'.state.virtualNetLimit)
  cpuParams : db'.config.cpuLimitParameters = cpuParameters c
  netParams : db'.config.netLimitParameters = netParameters c
  cpuPending : db'.state.pendingCpuUsage = 0
  netPending : db'.state.pendingNetUsage = 0

lemma finalizeResources_finalized (he : db.TotalsExact) (h : db.finalizeResources c n = .ok db') :
    Finalized db c n db' := by
  obtain ⟨d, hd, h⟩ := bind_ok h
  obtain ⟨hexact, hsame, _⟩ := processLimitUpdates_exact he he.pending_covered hd
  rw [setBlockParameters_standard] at h
  obtain ⟨_, hset, h⟩ := bind_ok h
  cases hset
  obtain ⟨cpu, net, hcpu, hnet, rfl⟩ := processBlockUsage_iff.mp h
  rw [hsame.averageCpu, hsame.pendingCpu, hsame.virtualCpu] at hcpu
  rw [hsame.averageNet, hsame.pendingNet, hsame.virtualNet] at hnet
  exact ⟨⟨hexact.ram, hexact.cpu, hexact.net, hexact.fits, hexact.covered⟩, hcpu, hnet, rfl, rfl, rfl, rfl⟩

lemma finalizeResources_noPending (hp : db.pendingLimits = FlatMap.empty) (h : db.finalizeResources c n = .ok db') :
    db'.pendingLimits = FlatMap.empty := by
  obtain ⟨d, hd, h⟩ := bind_ok h
  rw [processAccountLimitUpdates, hp] at hd
  cases hd
  rw [setBlockParameters_standard] at h
  obtain ⟨_, hset, h⟩ := bind_ok h
  cases hset
  obtain ⟨_, _, _, _, rfl⟩ := processBlockUsage_iff.mp h
  exact hp

lemma finalizeResources_iff (he : db.TotalsExact) :
    (∃ db', db.finalizeResources c n = .ok db') ↔
    LimitsFit db.limits db.pendingLimits.entries ∧
      (∃ r, meter db.state.averageBlockCpuUsage db.state.pendingCpuUsage n db.state.virtualCpuLimit
        (cpuParameters c) = .ok r) ∧
      ∃ r, meter db.state.averageBlockNetUsage db.state.pendingNetUsage n db.state.virtualNetLimit
        (netParameters c) = .ok r := by
  constructor
  · rintro ⟨db', h⟩
    have hf := finalizeResources_finalized he h
    obtain ⟨d, hd, _⟩ := bind_ok h
    exact ⟨(processLimitUpdates_iff he he.pending_covered).mp ⟨d, hd⟩, ⟨_, hf.cpu⟩, ⟨_, hf.net⟩⟩
  · rintro ⟨hfit, ⟨cpu, hcpu⟩, net, hnet⟩
    obtain ⟨d, hd⟩ := (processLimitUpdates_iff he he.pending_covered).mpr hfit
    obtain ⟨_, hsame, _⟩ := processLimitUpdates_exact he he.pending_covered hd
    rw [← hsame.averageCpu, ← hsame.pendingCpu, ← hsame.virtualCpu] at hcpu
    rw [← hsame.averageNet, ← hsame.pendingNet, ← hsame.virtualNet] at hnet
    exact ⟨_, result_bind.mpr ⟨d, hd, result_bind.mpr ⟨_, setBlockParameters_standard c,
      processBlockUsage_iff.mpr ⟨cpu, net, hcpu, hnet, rfl⟩⟩⟩⟩

end Db

end XosChain.ResourceLimits
