import XosChain.Lib.FlatMap
import XosChain.ResourceLimits.Accumulator

namespace XosChain.ResourceLimits

open Lib FlatMap

abbrev Time := {t : ℤ // -2 ^ 63 ≤ t ∧ t < 2 ^ 63}

lemma Time.zero_fits : -2 ^ 63 ≤ (0 : ℤ) ∧ (0 : ℤ) < 2 ^ 63 := by decide

lemma Time.five_fits : -2 ^ 63 ≤ (5 : ℤ) ∧ (5 : ℤ) < 2 ^ 63 := by decide

def Time.secSinceEpoch (t : Time) : ℕ := (t.val.tdiv 1000000 % 2 ^ 32).toNat

def Timed (α : Type) := (ℕ → Time) → ℕ → Result α × ℕ

instance : Monad Timed where
  pure a := fun _ i => (.ok a, i)
  bind x f := fun clock i =>
    match x clock i with
    | (.ok a, j) => f a clock j
    | (.error e, j) => (.error e, j)

instance : MonadLift Result Timed := ⟨fun r _ i => (r, i)⟩

def now : Timed Time := fun clock i => (.ok (clock i), i + 1)

structure UsagePerDayAccumulator where
  currentTime : Time := ⟨0, Time.zero_fits⟩
  currentDay : ℕ := 0
  usagePerDay : ℕ := 0
  deriving DecidableEq

namespace UsagePerDayAccumulator

def secondsOfDay : ℕ := 24 * 60 * 60

def record (u : UsagePerDayAccumulator) (time : Time) (seconds units : ℕ) : UsagePerDayAccumulator :=
  let day := seconds / secondsOfDay * secondsOfDay
  { currentTime := time
    currentDay := day
    usagePerDay := ((if u.currentDay ≠ day then 0 else u.usagePerDay) + units) % 2 ^ 64 }

def add (u : UsagePerDayAccumulator) (units : ℕ) : Timed UsagePerDayAccumulator := do
  let nowtime ← now
  (eosAssert (nowtime.val > u.currentTime.val) .resourceLimitException "new time cannot be less than the previous time" :
    Result Unit)
  let second ← now
  pure (u.record nowtime second.secSinceEpoch units)

def validate (u : UsagePerDayAccumulator) (threshold : ℕ) (weight : ℤ) : ℤ :=
  if u.usagePerDay ≤ threshold then -1 else weight

end UsagePerDayAccumulator

structure Limits where
  ramBytes : ℤ := -1
  netWeight : ℤ := -1
  cpuWeight : ℤ := -1
  deriving DecidableEq

structure ResourceUsage where
  netUsage : UsageAccumulator := {}
  cpuUsage : UsageAccumulator := {}
  ramUsage : ℕ := 0
  deriving DecidableEq

structure ResourceConfig where
  cpuLimitParameters : ElasticLimitParameters := standardParameters 20000 200000
  netLimitParameters : ElasticLimitParameters := standardParameters 104857 1048576
  accountCpuUsageAverageWindow : ℕ := 172800
  accountNetUsageAverageWindow : ℕ := 172800
  deriving DecidableEq

structure ResourceState where
  averageBlockNetUsage : UsageAccumulator := {}
  averageBlockCpuUsage : UsageAccumulator := {}
  pendingNetUsage : ℕ := 0
  pendingCpuUsage : ℕ := 0
  totalNetWeight : ℕ := 0
  totalCpuWeight : ℕ := 0
  totalRamBytes : ℕ := 0
  virtualNetLimit : ℕ := 0
  virtualCpuLimit : ℕ := 0
  deriving DecidableEq

structure Db where
  limits : FlatMap AccountName Limits := empty
  pendingLimits : FlatMap AccountName Limits := empty
  usage : FlatMap AccountName ResourceUsage := empty
  usagePerDay : FlatMap AccountName UsagePerDayAccumulator := empty
  state : ResourceState := {}
  config : ResourceConfig := {}
  freeResourceLimitPerDay : ℕ := 1000
  deriving DecidableEq

def initializeDatabase : Db :=
  { state := { virtualCpuLimit := 200000, virtualNetLimit := 1048576 } }

abbrev Accounts := {l : List AccountName // l.Pairwise (· < ·)}

lemma nil_ascending : ([] : List AccountName).Pairwise (· < ·) := .nil

lemma one_ascending : ([1] : List AccountName).Pairwise (· < ·) := by decide

def getRow {ν : Type} (m : FlatMap AccountName ν) (a : AccountName) : Result ν :=
  match m.find? a with
  | some v => pure v
  | none => .error ⟨.outOfRange, "key not found"⟩

def createRow {ν : Type} (m : FlatMap AccountName ν) (a : AccountName) (v : ν) : Result (FlatMap AccountName ν) :=
  if m.contains a then
    .error ⟨.logicError, "could not insert object, most likely a uniqueness constraint was violated"⟩
  else pure (m.set a v)

lemma getRow_ok {ν : Type} {m : FlatMap AccountName ν} {a : AccountName} {v : ν} :
    getRow m a = .ok v ↔ m.find? a = some v := by
  rw [getRow]
  cases m.find? a <;> simp [pure, Except.pure]

lemma createRow_ok {ν : Type} {m m' : FlatMap AccountName ν} {a : AccountName} {v : ν}
    (h : createRow m a v = .ok m') : m.find? a = none ∧ m' = m.set a v := by
  rw [createRow] at h
  split_ifs at h with hc
  refine ⟨?_, (Except.ok.inj h).symm⟩
  rw [Bool.not_eq_true, contains, Option.isSome_eq_false_iff, Option.isNone_iff_eq_none] at hc
  exact hc

namespace Db

def initializeAccount (db : Db) (account : AccountName) : Result Db := do
  let limits ← createRow db.limits account {}
  let usage ← createRow db.usage account {}
  let usagePerDay ← createRow db.usagePerDay account {}
  pure { db with limits, usage, usagePerDay }

def setBlockParameters (db : Db) (cpu net : ElasticLimitParameters) : Result Db := do
  cpu.validate
  net.validate
  pure { db with config := { db.config with cpuLimitParameters := cpu, netLimitParameters := net } }

def updateUsage (db : Db) (cpu net timeSlot : ℕ) (a : AccountName) : Result Db := do
  let usage ← getRow db.usage a
  let netUsage ← usage.netUsage.add net timeSlot db.config.accountNetUsageAverageWindow
  let cpuUsage ← usage.cpuUsage.add cpu timeSlot db.config.accountCpuUsageAverageWindow
  pure { db with usage := db.usage.set a { usage with netUsage, cpuUsage } }

def updateAccountUsage (db : Db) (accounts : Accounts) (timeSlot : ℕ) : Result Db :=
  accounts.val.foldlM (fun db a => db.updateUsage 0 0 timeSlot a) db

def getAccountLimits (db : Db) (a : AccountName) : Result Limits :=
  match db.pendingLimits.find? a with
  | some l => pure l
  | none => getRow db.limits a

def getAccountLimitsXos (db : Db) (a : AccountName) : Result Limits := do
  let l ← db.getAccountLimits a
  let perDay ← getRow db.usagePerDay a
  pure
    { ramBytes := l.ramBytes
      netWeight := perDay.validate db.freeResourceLimitPerDay l.netWeight
      cpuWeight := perDay.validate db.freeResourceLimitPerDay l.cpuWeight }

def addTransactionUsageXos (db : Db) (a : AccountName) : Timed Db := do
  let perDay ← getRow db.usagePerDay a
  let perDay ← perDay.add 1
  pure { db with usagePerDay := db.usagePerDay.set a perDay }

def maxUseInWindow (virtualLimit windowSize : ℕ) (weight : ℤ) (total : ℕ) : ℕ :=
  virtualLimit * windowSize * weight.toNat % 2 ^ 128 / total

def checkWeight (valueEx windowSize virtualLimit total : ℕ) (weight : ℤ) (code : Exception) (what : String) :
    Result Unit :=
  if weight ≥ 0 ∧ total > 0 then
    eosAssert (valueEx * windowSize / precision ≤ maxUseInWindow virtualLimit windowSize weight total) code what
  else pure ()

def checkWeights (db : Db) (a : AccountName) (l : Limits) : Result Unit := do
  let usage ← getRow db.usage a
  checkWeight usage.cpuUsage.valueEx db.config.accountCpuUsageAverageWindow db.state.virtualCpuLimit
    db.state.totalCpuWeight l.cpuWeight .txCpuUsageExceeded
    "authorizing account '${n}' has insufficient cpu resources for this transaction"
  checkWeight usage.netUsage.valueEx db.config.accountNetUsageAverageWindow db.state.virtualNetLimit
    db.state.totalNetWeight l.netWeight .txNetUsageExceeded
    "authorizing account '${n}' has insufficient net resources for this transaction"

def billAccounts (cpu net timeSlot : ℕ) (db : Db) : List AccountName → Timed Db
  | [] => pure db
  | a :: accounts => do
    let l ← db.getAccountLimitsXos a
    let db ← db.updateUsage cpu net timeSlot a
    let db ← db.addTransactionUsageXos a
    db.checkWeights a l
    db.billAccounts cpu net timeSlot accounts

def addPendingUsage (db : Db) (cpu net : ℕ) : Result Db := do
  let pendingCpuUsage := (db.state.pendingCpuUsage + cpu) % 2 ^ 64
  let pendingNetUsage := (db.state.pendingNetUsage + net) % 2 ^ 64
  eosAssert (pendingCpuUsage ≤ db.config.cpuLimitParameters.max) .blockResourceExhausted
    "Block has insufficient cpu resources"
  eosAssert (pendingNetUsage ≤ db.config.netLimitParameters.max) .blockResourceExhausted
    "Block has insufficient net resources"
  pure { db with state := { db.state with pendingCpuUsage, pendingNetUsage } }

def addTransactionUsage (db : Db) (accounts : Accounts) (cpu net timeSlot : ℕ) : Timed Db := do
  let db ← db.billAccounts cpu net timeSlot accounts.val
  db.addPendingUsage cpu net

def setAccountLimits (db : Db) (account : AccountName) (l : Limits) : Result (Bool × Db) := do
  let limits ← db.getAccountLimits account
  let decreased := decide (l.ramBytes ≥ 0 ∧ (limits.ramBytes < 0 ∨ l.ramBytes < limits.ramBytes))
  pure (decreased, { db with pendingLimits := db.pendingLimits.set account l })

def updateStateAndValue (total : ℕ) (value pendingValue : ℤ) (which : String) : Result ℕ := do
  eosAssert (value > 0 → total ≥ value.toNat) .rateLimitingStateInconsistent
    s!"underflow when reverting old value to {which}"
  let total := if value > 0 then total - value.toNat else total
  eosAssert (pendingValue > 0 → uint64Max - total ≥ pendingValue.toNat) .rateLimitingStateInconsistent
    s!"overflow when applying new value to {which}"
  pure (if pendingValue > 0 then total + pendingValue.toNat else total)

def processLimitUpdate (db : Db) (e : AccountName × Limits) : Result Db := do
  let actual ← getRow db.limits e.1
  let totalRamBytes ← updateStateAndValue db.state.totalRamBytes actual.ramBytes e.2.ramBytes "ram_bytes"
  let totalCpuWeight ← updateStateAndValue db.state.totalCpuWeight actual.cpuWeight e.2.cpuWeight "cpu_weight"
  let totalNetWeight ← updateStateAndValue db.state.totalNetWeight actual.netWeight e.2.netWeight "net_weight"
  pure
    { db with
      limits := db.limits.set e.1 e.2
      pendingLimits := db.pendingLimits.erase e.1
      state := { db.state with totalRamBytes, totalCpuWeight, totalNetWeight } }

def processAccountLimitUpdates (db : Db) : Result Db := db.pendingLimits.entries.foldlM processLimitUpdate db

def processBlockUsage (db : Db) (blockNum : ℕ) : Result Db := do
  let s := db.state
  let cpu ← s.averageBlockCpuUsage.add s.pendingCpuUsage blockNum db.config.cpuLimitParameters.periods
  let virtualCpuLimit ← updateElasticLimit s.virtualCpuLimit cpu.average db.config.cpuLimitParameters
  let net ← s.averageBlockNetUsage.add s.pendingNetUsage blockNum db.config.netLimitParameters.periods
  let virtualNetLimit ← updateElasticLimit s.virtualNetLimit net.average db.config.netLimitParameters
  pure
    { db with
      state :=
        { s with
          averageBlockCpuUsage := cpu
          virtualCpuLimit
          pendingCpuUsage := 0
          averageBlockNetUsage := net
          virtualNetLimit
          pendingNetUsage := 0 } }

structure AccountResourceLimit where
  used : ℤ
  available : ℤ
  max : ℤ
  deriving DecidableEq

def int64Max : ℕ := 2 ^ 63 - 1

def accountLimit (valueEx windowSize limit total : ℕ) (weight : ℤ) : Result AccountResourceLimit :=
  if weight < 0 ∨ total = 0 then pure ⟨-1, -1, -1⟩
  else do
    let maxUse := maxUseInWindow limit windowSize weight total
    let usedInWindow := integerDivideCeil (valueEx * windowSize) precision
    let available ← if maxUse ≤ usedInWindow then pure 0 else downgradeCast int64Max (maxUse - usedInWindow)
    let used ← downgradeCast int64Max usedInWindow
    let max ← downgradeCast int64Max maxUse
    pure ⟨used, available, max⟩

def getAccountCpuLimitEx (db : Db) (a : AccountName) (elastic : Bool) : Result AccountResourceLimit := do
  let usage ← getRow db.usage a
  let l ← db.getAccountLimitsXos a
  accountLimit usage.cpuUsage.valueEx db.config.accountCpuUsageAverageWindow
    (if elastic then db.state.virtualCpuLimit else db.config.cpuLimitParameters.max) db.state.totalCpuWeight l.cpuWeight

def getAccountNetLimitEx (db : Db) (a : AccountName) (elastic : Bool) : Result AccountResourceLimit := do
  let usage ← getRow db.usage a
  let l ← db.getAccountLimitsXos a
  accountLimit usage.netUsage.valueEx db.config.accountNetUsageAverageWindow
    (if elastic then db.state.virtualNetLimit else db.config.netLimitParameters.max) db.state.totalNetWeight l.netWeight

end Db

end XosChain.ResourceLimits
