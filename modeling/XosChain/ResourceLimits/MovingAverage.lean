import XosChain.ResourceLimits.Accumulator

namespace XosChain.ResourceLimits

def decayCap : ℕ := uint64Max / 119

lemma decayCap_eq : decayCap = 155014656081592870 := rfl

lemma uint64Max_eq : uint64Max = 18446744073709551615 := rfl

lemma scale_of_le {value : ℕ} {r : Ratio} (h : r.numerator = 0 ∨ value ≤ uint64Max / r.numerator) :
    scale value r = .ok (value * r.numerator / r.denominator) :=
  eosAssert_bind.mpr ⟨h, rfl⟩

lemma integerDivideCeil_le {num den k : ℕ} (h : num ≤ k * den) : integerDivideCeil num den ≤ k := by
  have hdiv : num / den ≤ k := Nat.div_le_of_le_mul (mul_comm k den ▸ h)
  rw [integerDivideCeil]
  split_ifs with hm
  · rcases Nat.lt_or_ge (num / den) k with hlt | hge
    · omega
    · have hk : num / den = k := le_antisymm hdiv hge
      have hmod := Nat.div_add_mod num den
      rw [hk, mul_comm] at hmod
      omega
  · omega

lemma downgradeCast_ok {max val r : ℕ} : downgradeCast max val = .ok r ↔ val ≤ max ∧ r = val := by
  rw [downgradeCast, eosAssert_bind]
  exact and_congr_right fun _ => ⟨fun h => (Except.ok.inj h).symm, fun h => h ▸ rfl⟩

lemma MovingAverage.add_ok_iff {p units ordinal w : ℕ} {u v : UsageAccumulator} :
    add p u units ordinal w = .ok v ↔ (units ≤ uint64Max / p ∧ units ≤ uint64Max - u.consumed ∧
      integerDivideCeil (units * p) w ≤ uint64Max - u.valueEx) ∧
      ∃ a, advance p u ordinal w = .ok a ∧ v = ⟨a.lastOrdinal,
        (a.valueEx + integerDivideCeil (units * p) w) % 2 ^ 64, (a.consumed + units) % 2 ^ 64⟩ := by
  constructor
  · intro h
    obtain ⟨hraw, h⟩ := eosAssert_ok h
    obtain ⟨hcons, h⟩ := eosAssert_ok h
    obtain ⟨_, hc, h⟩ := bind_ok h
    obtain ⟨-, rfl⟩ := downgradeCast_ok.mp hc
    obtain ⟨hval, h⟩ := eosAssert_ok h
    obtain ⟨a, ha, h⟩ := bind_ok h
    exact ⟨⟨hraw, hcons, hval⟩, a, ha, (Except.ok.inj h).symm⟩
  · rintro ⟨⟨hraw, hcons, hval⟩, a, ha, rfl⟩
    exact eosAssert_bind.mpr ⟨hraw, eosAssert_bind.mpr ⟨hcons, result_bind.mpr ⟨_, downgradeCast_ok.mpr
      ⟨hval.trans (Nat.sub_le _ _), rfl⟩, eosAssert_bind.mpr ⟨hval, result_bind.mpr ⟨a, ha, rfl⟩⟩⟩⟩⟩

namespace UsageAccumulator

variable {u v : UsageAccumulator} {n units : ℕ}

section

variable (hv : u.valueEx ≤ decayCap) (ho : u.lastOrdinal ≤ n)

include hv ho

lemma decayed_ok :
    ∃ d, u.decayed (n + 1) blockPeriods = .ok d ∧ d ≤ u.valueEx * 119 / 120 ∧
      (u.lastOrdinal = n → d = u.valueEx * 119 / 120) := by
  rw [decayed]
  split_ifs with hw
  · have hnum : blockPeriods - (n + 1 - u.lastOrdinal) ≤ 119 := by
      rw [blockPeriods]
      omega
    have hpos : 0 < blockPeriods - (n + 1 - u.lastOrdinal) := by omega
    refine ⟨_, scale_of_le (.inr (hv.trans (Nat.div_le_div_left hnum hpos))), ?_, ?_⟩
    · exact Nat.div_le_div_right (Nat.mul_le_mul_left _ hnum)
    · intro he
      subst he
      rw [Nat.add_sub_cancel_left]
      rfl
  · refine ⟨0, rfl, Nat.zero_le _, ?_⟩
    intro he
    rw [blockPeriods] at hw
    omega

lemma advance_ok :
    ∃ d, u.advance (n + 1) blockPeriods = .ok ⟨n + 1, d, integerDivideCeil d precision⟩ ∧
      d ≤ u.valueEx * 119 / 120 ∧ (u.lastOrdinal = n → d = u.valueEx * 119 / 120) := by
  obtain ⟨d, hd, hle, heq⟩ := decayed_ok hv ho
  refine ⟨d, ?_, hle, heq⟩
  rw [advance, MovingAverage.advance, if_pos (by omega)]
  exact eosAssert_bind.mpr ⟨Nat.lt_succ_of_le ho, result_bind.mpr ⟨d, hd, rfl⟩⟩

lemma add_ok (hc : u.consumed ≤ 2 ^ 40) (hu : units ≤ 2 ^ 39) :
    ∃ v d, u.add units (n + 1) blockPeriods = .ok v ∧ d ≤ u.valueEx * 119 / 120 ∧
      (u.lastOrdinal = n → d = u.valueEx * 119 / 120) ∧ v.lastOrdinal = n + 1 ∧
      v.valueEx = d + integerDivideCeil (units * precision) blockPeriods ∧ v.consumed ≤ 2 ^ 40 := by
  obtain ⟨d, hd, hle, heq⟩ := advance_ok hv ho
  have hcontrib : integerDivideCeil (units * precision) blockPeriods ≤ 2 ^ 53 :=
    integerDivideCeil_le (by rw [precision, blockPeriods]; omega)
  have havg : integerDivideCeil d precision ≤ 2 ^ 38 :=
    integerDivideCeil_le (by rw [precision]; rw [decayCap_eq] at hv; omega)
  rw [decayCap_eq] at hv
  refine ⟨⟨n + 1, (d + integerDivideCeil (units * precision) blockPeriods) % 2 ^ 64,
    (integerDivideCeil d precision + units) % 2 ^ 64⟩, d, ?_, hle, heq, rfl, ?_, ?_⟩
  · refine MovingAverage.add_ok_iff.mpr ⟨⟨?_, ?_, ?_⟩, _, hd, rfl⟩
    · rw [uint64Max_eq, precision]
      omega
    · rw [uint64Max_eq]
      omega
    · rw [uint64Max_eq]
      omega
  · exact Nat.mod_eq_of_lt (by omega)
  · exact (Nat.mod_le _ _).trans (by omega)

end

lemma add_throws (hv : decayCap < u.valueEx) (ho : u.lastOrdinal = n) :
    u.add units (n + 1) blockPeriods ≠ .ok v := by
  intro h
  obtain ⟨-, w, hw, -⟩ := MovingAverage.add_ok_iff.mp h
  rw [MovingAverage.advance, if_pos (by omega)] at hw
  obtain ⟨_, hw⟩ := eosAssert_ok hw
  obtain ⟨d, hd, _⟩ := bind_ok hw
  rw [decayed, if_pos (by rw [blockPeriods]; omega)] at hd
  obtain ⟨hs, _⟩ := eosAssert_ok hd
  have hnum : blockPeriods - (n + 1 - u.lastOrdinal) = 119 := by
    rw [blockPeriods]
    omega
  rw [hnum] at hs
  rcases hs with hs | hs
  · cases hs
  · exact absurd hs (not_le.mpr hv)

end UsageAccumulator

lemma updateElasticLimit_ok {current max : ℕ} (average target : ℕ) (hc : current ≤ uint64Max / 1000)
    (hm : max * 1000 < 2 ^ 64) :
    ∃ r, updateElasticLimit current average (standardParameters target max) = .ok r ∧ max ≤ r ∧ r ≤ 1000 * max := by
  have hscale : ∃ r, scale current (if average > target then ⟨99, 100⟩ else ⟨1000, 999⟩) = .ok r := by
    split_ifs
    · exact ⟨_, scale_of_le (.inr (hc.trans (Nat.div_le_div_left (by decide) (by decide))))⟩
    · exact ⟨_, scale_of_le (.inr hc)⟩
  obtain ⟨r, hr⟩ := hscale
  refine ⟨min (Max.max r max) (max * 1000 % 2 ^ 64), result_bind.mpr ⟨r, hr, rfl⟩, ?_, ?_⟩
  · rw [Nat.mod_eq_of_lt hm]
    exact le_min (le_max_right _ _) (by omega)
  · rw [Nat.mod_eq_of_lt hm, mul_comm 1000]
    exact min_le_right _ _

end XosChain.ResourceLimits
