import XosChain.ResourceLimits.BillingChecks
import Mathlib.Tactic.Linarith

namespace XosChain.ResourceLimits.MovingAverage

open List UsageAccumulator

structure Call where
  units : ℕ
  ordinal : ℕ

def run (precision w : ℕ) (calls : List Call) : Result UsageAccumulator :=
  calls.foldlM (fun u c => add precision u c.units c.ordinal w) {}

def unitsAt (calls : List Call) (o : ℕ) : ℕ := (calls.map fun c => if c.ordinal = o then c.units else 0).sum

def chargesAt (calls : List Call) (o : ℕ) : ℕ := calls.countP fun c => c.ordinal = o ∧ 0 < c.units

structure Bounded (cap k : ℕ) (calls : List Call) : Prop where
  ordered : calls.Pairwise (·.ordinal ≤ ·.ordinal)
  units : ∀ o, unitsAt calls o ≤ cap
  charges : ∀ o, chargesAt calls o ≤ k

variable {p w cap k units ordinal : ℕ} {u v : UsageAccumulator} {c : Call} {calls : List Call}

lemma unitsAt_concat (o : ℕ) :
    unitsAt (calls ++ [c]) o = unitsAt calls o + if c.ordinal = o then c.units else 0 := by
  simp [unitsAt]

def charge (units : ℕ) : ℕ := if 0 < units then 1 else 0

lemma chargesAt_concat (o : ℕ) :
    chargesAt (calls ++ [c]) o = chargesAt calls o + if c.ordinal = o then charge c.units else 0 := by
  by_cases ho : c.ordinal = o <;> simp [chargesAt, charge, countP_append, countP_singleton, ho]

lemma chargesAt_le_unitsAt (calls : List Call) (o : ℕ) : chargesAt calls o ≤ unitsAt calls o := by
  induction calls using reverseRecOn with
  | nil => exact le_rfl
  | append_singleton calls c ih =>
    rw [unitsAt_concat, chargesAt_concat, charge]
    split_ifs <;> omega

lemma Bounded.of_append {more : List Call} (h : Bounded cap k (calls ++ more)) : Bounded cap k calls where
  ordered := (pairwise_append.mp h.ordered).1
  units o := by
    refine le_trans ?_ (h.units o)
    simp [unitsAt]
  charges o := by
    refine le_trans ?_ (h.charges o)
    simp [chargesAt]

lemma contribution_le (hw : 1 ≤ w) (units p : ℕ) :
    integerDivideCeil (units * p) w * w ≤ units * p + charge units * (w - 1) := by
  rw [charge]
  split_ifs with hu
  · have hc := integerDivideCeil_mul_lt (x := units * p) hw
    omega
  · obtain rfl : units = 0 := by omega
    simp [integerDivideCeil]

def bound (p w cap k : ℕ) : ℕ := cap * p + min k cap * (w - 1)

structure Tracked (p w cap k : ℕ) (calls : List Call) (u : UsageAccumulator) : Prop where
  last : u.lastOrdinal = 0 ∨ ∃ c ∈ calls, c.ordinal = u.lastOrdinal
  value : u.valueEx * w ≤
    bound p w cap k * (w - 1) + unitsAt calls u.lastOrdinal * p + chargesAt calls u.lastOrdinal * (w - 1)
  consumed : u.consumed ≤ bound p w cap k + unitsAt calls u.lastOrdinal

lemma Tracked.le_bound (hw : 1 ≤ w) (hb : Bounded cap k calls) (h : Tracked p w cap k calls u) :
    u.valueEx ≤ bound p w cap k := by
  obtain ⟨n, rfl⟩ := Nat.exists_eq_add_of_le' hw
  have hu := Nat.mul_le_mul_right p (hb.units u.lastOrdinal)
  have hk := Nat.mul_le_mul_right n
    (le_min (hb.charges u.lastOrdinal) ((chargesAt_le_unitsAt calls u.lastOrdinal).trans (hb.units u.lastOrdinal)))
  have hv := h.value
  refine Nat.le_of_mul_le_mul_right ?_ hw
  rw [Nat.add_sub_cancel] at hv
  have hB : bound p (n + 1) cap k * (n + 1) = bound p (n + 1) cap k * n + (cap * p + min k cap * n) := Nat.mul_succ _ _
  omega

lemma decayed_le (hw : 1 ≤ w) (hlt : u.lastOrdinal < ordinal) (hv : u.valueEx * (w - 1) ≤ uint64Max) :
    ∃ d, u.decayed ordinal w = .ok d ∧ d * w ≤ u.valueEx * (w - 1) := by
  rw [decayed]
  split_ifs with hnear
  · have hnum : w - (ordinal - u.lastOrdinal) ≤ w - 1 := by omega
    have hpos : 0 < w - (ordinal - u.lastOrdinal) := by omega
    have hle := Nat.mul_le_mul_left u.valueEx hnum
    refine ⟨_, scale_of_le (.inr ?_), (Nat.div_mul_le_self _ _).trans hle⟩
    exact (Nat.le_div_iff_mul_le hpos).mpr (hle.trans hv)
  · exact ⟨0, rfl, by omega⟩

section

variable (hw : 1 ≤ w) (hwp : w ≤ p) (hcap : cap * (w + 1) * p < 2 ^ 63)

include hw hwp hcap

lemma bound_lt : bound p w cap k + 2 * cap < 2 ^ 64 ∧ bound p w cap k + cap * p < 2 ^ 64 ∧
    bound p w cap k * (w - 1) ≤ uint64Max := by
  obtain ⟨n, rfl⟩ := Nat.exists_eq_add_of_le' hw
  have hround : min k cap * n ≤ cap * p :=
    Nat.mul_le_mul (min_le_right _ _) (by omega)
  have hone : cap ≤ cap * p := Nat.le_mul_of_pos_right _ (by omega)
  have hsplit : cap * (n + 1 + 1) * p = cap * p * n + 2 * (cap * p) := by ring
  have hmul := Nat.mul_le_mul_right n hround
  rw [bound, Nat.add_sub_cancel, uint64Max, add_mul]
  refine ⟨?_, ?_, ?_⟩ <;> omega

lemma Tracked.advance (hb : Bounded cap k (calls ++ [c])) (h : Tracked p w cap k calls u) :
    ∃ v, MovingAverage.advance p u c.ordinal w = .ok v ∧ v.lastOrdinal = c.ordinal ∧
      v.valueEx * w + c.units * p + charge c.units * (w - 1) ≤ bound p w cap k * (w - 1) +
        unitsAt (calls ++ [c]) c.ordinal * p + chargesAt (calls ++ [c]) c.ordinal * (w - 1) ∧
      v.consumed + c.units ≤ bound p w cap k + unitsAt (calls ++ [c]) c.ordinal := by
  have hbound := h.le_bound hw hb.of_append
  have hfits := (bound_lt (k := k) hw hwp hcap).2.2
  rw [unitsAt_concat, chargesAt_concat, if_pos rfl, if_pos rfl, add_mul, add_mul]
  rw [MovingAverage.advance]
  split_ifs with hne
  · have hle : u.lastOrdinal ≤ c.ordinal := by
      rcases h.last with h0 | ⟨c', hc', hlast⟩
      · omega
      · exact hlast ▸ (pairwise_append.mp hb.ordered).2.2 c' hc' c (mem_singleton_self c)
    have hmul := Nat.mul_le_mul_right (w - 1) hbound
    obtain ⟨d, hd, hdw⟩ := decayed_le hw (lt_of_le_of_ne hle hne) (hmul.trans hfits)
    refine ⟨⟨c.ordinal, d, integerDivideCeil d p⟩, ?_, rfl, ?_, ?_⟩
    · exact eosAssert_bind.mpr ⟨by omega, result_bind.mpr ⟨d, hd, rfl⟩⟩
    · dsimp only
      omega
    · have hdb : d ≤ bound p w cap k :=
        Nat.le_of_mul_le_mul_right ((hdw.trans hmul).trans (Nat.mul_le_mul_left _ (Nat.sub_le w 1))) hw
      have hceil : integerDivideCeil d p ≤ d := integerDivideCeil_le (Nat.le_mul_of_pos_right d (by omega))
      dsimp only
      omega
  · refine ⟨u, rfl, not_not.mp hne, ?_, ?_⟩
    · have hv := h.value
      rw [not_not.mp hne] at hv
      omega
    · have hc := h.consumed
      rw [not_not.mp hne] at hc
      omega

lemma Tracked.add (hb : Bounded cap k (calls ++ [c])) (h : Tracked p w cap k calls u) :
    ∃ v, MovingAverage.add p u c.units c.ordinal w = .ok v ∧ Tracked p w cap k (calls ++ [c]) v := by
  obtain ⟨hcons, hval, -⟩ := bound_lt (k := k) hw hwp hcap
  have hold := h.le_bound hw hb.of_append
  have hunits := hb.units c.ordinal
  have hlast := hb.of_append.units u.lastOrdinal
  have hc := h.consumed
  have hle : c.units ≤ unitsAt (calls ++ [c]) c.ordinal := by
    rw [unitsAt_concat, if_pos rfl]
    omega
  have hprod := Nat.mul_le_mul_right p (hle.trans hunits)
  have hcontrib : integerDivideCeil (c.units * p) w ≤ c.units * p := integerDivideCeil_le (Nat.le_mul_of_pos_right _ hw)
  have hcw := contribution_le hw c.units p
  obtain ⟨v, hv, ho, hsum, hcv⟩ := h.advance hw hwp hcap hb
  have hT : Tracked p w cap k (calls ++ [c])
      ⟨v.lastOrdinal, v.valueEx + integerDivideCeil (c.units * p) w, v.consumed + c.units⟩ := by
    refine ⟨.inr ⟨c, by simp, ho.symm⟩, ?_, ?_⟩
    · rw [add_mul, ho]
      omega
    · rw [ho]
      exact hcv
  have hbv := hT.le_bound hw hb
  dsimp only at hbv
  have hv64 : (v.valueEx + integerDivideCeil (c.units * p) w) % 2 ^ 64 = v.valueEx + integerDivideCeil (c.units * p) w :=
    Nat.mod_eq_of_lt (by omega)
  have hc64 : (v.consumed + c.units) % 2 ^ 64 = v.consumed + c.units := Nat.mod_eq_of_lt (by omega)
  refine ⟨_, add_ok_iff.mpr ⟨⟨?_, ?_, ?_⟩, v, hv, by rw [hv64, hc64]⟩, hT⟩
  · rw [Nat.le_div_iff_mul_le (by omega), uint64Max]
    omega
  · rw [uint64Max]
    omega
  · rw [uint64Max]
    omega

lemma run_tracked (hb : Bounded cap k calls) :
    ∃ u, run p w calls = .ok u ∧ Tracked p w cap k calls u := by
  induction calls using reverseRecOn with
  | nil => exact ⟨{}, rfl, .inl rfl, by simp, by simp⟩
  | append_singleton calls c ih =>
    obtain ⟨u, hu, ht⟩ := ih hb.of_append
    obtain ⟨v, hv, ht'⟩ := ht.add hw hwp hcap hb
    refine ⟨v, ?_, ht'⟩
    rw [run, foldlM_append]
    exact result_bind.mpr ⟨u, hu, result_bind.mpr ⟨v, hv, rfl⟩⟩

end

lemma add_after_gap (hw : 1 ≤ w) (hgap : u.lastOrdinal + w ≤ ordinal) (h : MovingAverage.add p u units ordinal w = .ok v) :
    v.valueEx = integerDivideCeil (units * p) w := by
  obtain ⟨⟨-, -, hfits⟩, a, ha, rfl⟩ := add_ok_iff.mp h
  rw [MovingAverage.advance, if_pos (by omega), decayed, if_neg (by omega)] at ha
  obtain ⟨_, ha⟩ := eosAssert_ok ha
  cases ha
  rw [uint64Max] at hfits
  simp only [Nat.zero_add]
  exact Nat.mod_eq_of_lt (by omega)

theorem moving_average_bound (hw : 1 ≤ w) (hwp : w ≤ p) (hcap : cap * (w + 1) * p < 2 ^ 63)
    (hb : Bounded cap k calls) : ∃ u, run p w calls = .ok u ∧ u.valueEx ≤ cap * p + k * w ∧
      ∀ units ordinal v, u.lastOrdinal + w ≤ ordinal → add p u units ordinal w = .ok v →
        v.valueEx = integerDivideCeil (units * p) w := by
  obtain ⟨u, hu, ht⟩ := run_tracked hw hwp hcap hb
  refine ⟨u, hu, (ht.le_bound hw hb).trans ?_, fun units ordinal v => add_after_gap hw⟩
  exact Nat.add_le_add_left (Nat.mul_le_mul (min_le_left _ _) (Nat.sub_le w 1)) _

theorem moving_average_bound_blocks :
    ∃ u, run precision 120 [⟨3, 1⟩, ⟨4, 2⟩] = .ok u ∧ u.valueEx ≤ 4 * precision + 1 * 120 := by
  have hb : Bounded 4 1 [⟨3, 1⟩, ⟨4, 2⟩] := by
    refine ⟨by decide, fun o => ?_, fun o => ?_⟩
    · simp only [unitsAt, map_cons, map_nil, sum_cons, sum_nil]
      split_ifs <;> omega
    · by_cases ho : 1 = o <;> by_cases ho' : 2 = o <;> simp [chargesAt, ho, ho']
      omega
  obtain ⟨u, hu, hv, -⟩ := moving_average_bound (p := precision) (w := 120) (by decide) (by decide) (by decide) hb
  exact ⟨u, hu, hv⟩

end XosChain.ResourceLimits.MovingAverage
