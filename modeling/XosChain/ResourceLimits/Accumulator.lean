import XosChain.Basic

namespace XosChain.ResourceLimits

structure Ratio where
  numerator : ℕ
  denominator : ℕ
  deriving DecidableEq

def scale (value : ℕ) (r : Ratio) : Result ℕ := do
  eosAssert (r.numerator = 0 ∨ uint64Max / r.numerator ≥ value) .rateLimitingStateInconsistent
    "Usage exceeds maximum value representable after extending for precision"
  pure (value * r.numerator / r.denominator)

def integerDivideCeil (num den : ℕ) : ℕ := num / den + if num % den > 0 then 1 else 0

def downgradeCast (max val : ℕ) : Result ℕ := do
  eosAssert (val ≤ max) .rateLimitingStateInconsistent
    "Casting a higher bit integer value ${v} to a lower bit integer value which cannot contain the value"
  pure val

def precision : ℕ := 1000 * 1000

def maxRawValue : ℕ := uint64Max / precision

structure UsageAccumulator where
  lastOrdinal : ℕ := 0
  valueEx : ℕ := 0
  consumed : ℕ := 0
  deriving DecidableEq

namespace UsageAccumulator

def average (u : UsageAccumulator) : ℕ := integerDivideCeil u.valueEx precision

def decayed (u : UsageAccumulator) (ordinal windowSize : ℕ) : Result ℕ :=
  if u.lastOrdinal + windowSize > ordinal then
    scale u.valueEx ⟨windowSize - (ordinal - u.lastOrdinal), windowSize⟩
  else pure 0

end UsageAccumulator

namespace MovingAverage

def advance (precision : ℕ) (u : UsageAccumulator) (ordinal windowSize : ℕ) : Result UsageAccumulator :=
  if u.lastOrdinal ≠ ordinal then do
    eosAssert (ordinal > u.lastOrdinal) .resourceLimitException
      "new ordinal cannot be less than the previous ordinal"
    let valueEx ← u.decayed ordinal windowSize
    pure { lastOrdinal := ordinal, valueEx, consumed := integerDivideCeil valueEx precision }
  else pure u

def add (precision : ℕ) (u : UsageAccumulator) (units ordinal windowSize : ℕ) : Result UsageAccumulator := do
  eosAssert (units ≤ uint64Max / precision) .rateLimitingStateInconsistent
    "Usage exceeds maximum value representable after extending for precision"
  eosAssert (uint64Max - u.consumed ≥ units) .rateLimitingStateInconsistent
    "Overflow in tracked usage when adding usage!"
  let contrib ← downgradeCast uint64Max (integerDivideCeil (units * precision) windowSize)
  eosAssert (uint64Max - u.valueEx ≥ contrib) .rateLimitingStateInconsistent
    "Overflow in accumulated value when adding usage!"
  let v ← advance precision u ordinal windowSize
  pure { v with consumed := (v.consumed + units) % 2 ^ 64, valueEx := (v.valueEx + contrib) % 2 ^ 64 }

end MovingAverage

def UsageAccumulator.advance (u : UsageAccumulator) (ordinal windowSize : ℕ) : Result UsageAccumulator :=
  MovingAverage.advance precision u ordinal windowSize

def UsageAccumulator.add (u : UsageAccumulator) (units ordinal windowSize : ℕ) : Result UsageAccumulator :=
  MovingAverage.add precision u units ordinal windowSize

structure ElasticLimitParameters where
  target : ℕ
  max : ℕ
  periods : ℕ
  maxMultiplier : ℕ
  contractRate : Ratio
  expandRate : Ratio
  deriving DecidableEq

def blockPeriods : ℕ := 120

def standardParameters (target max : ℕ) : ElasticLimitParameters :=
  ⟨target, max, blockPeriods, 1000, ⟨99, 100⟩, ⟨1000, 999⟩⟩

def ElasticLimitParameters.validate (p : ElasticLimitParameters) : Result Unit := do
  eosAssert (p.periods > 0) .resourceLimitException "elastic limit parameter 'periods' cannot be zero"
  eosAssert (p.contractRate.denominator > 0) .resourceLimitException
    "elastic limit parameter 'contract_rate' is not a well-defined ratio"
  eosAssert (p.expandRate.denominator > 0) .resourceLimitException
    "elastic limit parameter 'expand_rate' is not a well-defined ratio"

def updateElasticLimit (currentLimit averageUsage : ℕ) (params : ElasticLimitParameters) : Result ℕ := do
  let result ← scale currentLimit (if averageUsage > params.target then params.contractRate else params.expandRate)
  pure (min (max result params.max) (params.max * params.maxMultiplier % 2 ^ 64))

end XosChain.ResourceLimits
