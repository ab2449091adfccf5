import XosChain.ResourceLimits.Manager

namespace XosChain.ResourceLimits

open Lib

namespace Db

def addPendingRamUsage (db : Db) (account : AccountName) (ramDelta : ℤ) : Result Db :=
  if ramDelta = 0 then pure db
  else do
    let usage ← getRow db.usage account
    eosAssert (ramDelta ≤ 0 ∨ ramDelta ≤ uint64Max - usage.ramUsage) .transactionException
      "Ram usage delta would overflow UINT64_MAX"
    eosAssert (0 ≤ ramDelta ∨ -ramDelta ≤ usage.ramUsage) .transactionException
      "Ram usage delta would underflow UINT64_MAX"
    pure { db with usage := db.usage.set account { usage with ramUsage := (usage.ramUsage + ramDelta).toNat } }

def ramUsage (db : Db) (account : AccountName) : ℤ := (db.usage.find? account).elim 0 (·.ramUsage)

end Db

lemma addPendingRamUsage_ok {db db' : Db} {account : AccountName} {ramDelta : ℤ}
    (h : db.addPendingRamUsage account ramDelta = .ok db') (b : AccountName) :
    db'.ramUsage b = db.ramUsage b + if b = account then ramDelta else 0 := by
  rw [Db.addPendingRamUsage] at h
  split_ifs at h with hz
  · cases h
    simp [hz]
  · obtain ⟨usage, hu, h⟩ := bind_ok h
    obtain ⟨ho, h⟩ := eosAssert_ok h
    obtain ⟨hn, h⟩ := eosAssert_ok h
    cases h
    rw [getRow_ok] at hu
    by_cases hb : b = account
    · subst hb
      have hpos : 0 ≤ (usage.ramUsage : ℤ) + ramDelta := by omega
      simp [Db.ramUsage, hu, Int.toNat_of_nonneg hpos]
    · simp [Db.ramUsage, FlatMap.find?_set_of_ne _ _ (Ne.symm hb), hb]

end XosChain.ResourceLimits
