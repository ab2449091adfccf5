import XosChain.ResourceLimits.DailyQuota
import XosChain.ResourceLimits.MovingAverage

namespace XosChain.ResourceLimits

open Lib FlatMap

def int64Range (v : ℤ) : Prop := -1 ≤ v ∧ v ≤ Db.int64Max

structure ElasticLimitParameters.InRange (p : ElasticLimitParameters) : Prop where
  max : p.max ≤ uint64Max
  target : p.target ≤ uint64Max
  periods : p.periods < 2 ^ 32
  maxMultiplier : p.maxMultiplier < 2 ^ 32

def Call.Admissible : Call → Prop
  | .setAccountLimits _ l => int64Range l.ramBytes ∧ int64Range l.netWeight ∧ int64Range l.cpuWeight
  | .setBlockParameters cpu net => cpu.InRange ∧ net.InRange
  | .addTransactionUsage _ cpu net slot => cpu ≤ uint64Max ∧ net ≤ uint64Max ∧ slot < 2 ^ 32
  | .updateAccountUsage _ slot => slot < 2 ^ 32
  | .processBlockUsage n => n < 2 ^ 32
  | _ => True

def Db.AccountResourceLimit.Proper (l : AccountResourceLimit) : Prop :=
  l = ⟨-1, -1, -1⟩ ∨ 0 ≤ l.used ∧ 0 ≤ l.available ∧ l.available ≤ l.max ∧ l.available = Max.max 0 (l.max - l.used)

namespace Db

def setBlockParametersXos (db : Db) (freeResourceLimitPerDay : ℕ) : Db := { db with freeResourceLimitPerDay }

inductive Operated : Db → Prop
  | start : Operated initializeDatabase
  | call {db : Db} {c : Call} {clock : ℕ → Time} {i j : ℕ} {r : Response × Db} : Operated db → c.Admissible →
    db.perform c clock i = (.ok r, j) → Operated r.2
  | free {db : Db} (limit : ℕ) : limit < 2 ^ 16 → Operated db → Operated (db.setBlockParametersXos limit)

def cpuShared (db : Db) (elastic : Bool) : ℕ :=
  if elastic then db.state.virtualCpuLimit else db.config.cpuLimitParameters.max

def netShared (db : Db) (elastic : Bool) : ℕ :=
  if elastic then db.state.virtualNetLimit else db.config.netLimitParameters.max

def ShareFits (limit : ℕ) (weight : ℤ) (total : ℕ) : Prop :=
  weight < 0 ∨ total = 0 ∨ maxUseInWindow limit 172800 weight total ≤ int64Max

section

variable {valueEx windowSize limit total : ℕ} {weight : ℤ}

def castLimit (maxUse usedInWindow available : ℕ) : Result AccountResourceLimit := do
  let used ← downgradeCast int64Max usedInWindow
  let max ← downgradeCast int64Max maxUse
  pure ⟨used, available, max⟩

lemma castLimit_ok {m n : ℕ} (hm : m ≤ int64Max) (hn : n ≤ int64Max) (available : ℕ) :
    castLimit m n available = .ok ⟨n, available, m⟩ :=
  result_bind.mpr ⟨_, downgradeCast_ok.mpr ⟨hn, rfl⟩, result_bind.mpr ⟨_, downgradeCast_ok.mpr ⟨hm, rfl⟩, rfl⟩⟩

lemma accountLimit_eq (h : ¬ (weight < 0 ∨ total = 0)) {m n : ℕ} (hm : maxUseInWindow limit windowSize weight total = m)
    (hn : integerDivideCeil (valueEx * windowSize) precision = n) :
    accountLimit valueEx windowSize limit total weight =
      (if m ≤ n then pure 0 else downgradeCast int64Max (m - n)) >>= castLimit m n := by
  rw [accountLimit, if_neg h]
  dsimp only
  rw [hm, hn]
  split_ifs <;> rfl

lemma accountLimit_proper_iff (hu : integerDivideCeil (valueEx * windowSize) precision ≤ int64Max) :
    (∃ l, accountLimit valueEx windowSize limit total weight = .ok l ∧ l.Proper) ↔
    weight < 0 ∨ total = 0 ∨ maxUseInWindow limit windowSize weight total ≤ int64Max := by
  by_cases hc : weight < 0 ∨ total = 0
  · rw [accountLimit, if_pos hc]
    exact iff_of_true ⟨_, rfl, .inl rfl⟩ (by tauto)
  · rw [accountLimit_eq hc rfl rfl, ← or_assoc, or_iff_right hc]
    generalize maxUseInWindow limit windowSize weight total = m
    generalize integerDivideCeil (valueEx * windowSize) precision = n at hu ⊢
    constructor
    · rintro ⟨l, hl, -⟩
      obtain ⟨_, _, hl⟩ := bind_ok hl
      obtain ⟨_, _, hl⟩ := bind_ok hl
      obtain ⟨_, hmax, _⟩ := bind_ok hl
      exact (downgradeCast_ok.mp hmax).1
    · intro hmax
      by_cases hle : m ≤ n
      · refine ⟨_, result_bind.mpr ⟨0, if_pos hle, castLimit_ok hmax hu 0⟩, .inr ⟨?_, ?_, ?_, ?_⟩⟩ <;> dsimp only <;> omega
      · have hcast : downgradeCast int64Max (m - n) = .ok (m - n) := downgradeCast_ok.mpr ⟨by omega, rfl⟩
        refine ⟨_, result_bind.mpr ⟨_, (if_neg hle).trans hcast, castLimit_ok hmax hu _⟩, .inr ⟨?_, ?_, ?_, ?_⟩⟩ <;>
          dsimp only <;> omega

lemma used_fits (h : valueEx < 2 ^ 64) : integerDivideCeil (valueEx * 172800) precision ≤ int64Max :=
  integerDivideCeil_le (by rw [precision, int64Max]; omega)

lemma shareFits_of_counted (hw : weight ≤ total) (hl : limit ≤ int64Max / 172800) : ShareFits limit weight total := by
  by_cases ht : total = 0
  · exact .inr (.inl ht)
  · refine .inr (.inr ?_)
    have hcap : limit * 172800 ≤ int64Max := by
      rw [int64Max] at hl ⊢
      omega
    calc maxUseInWindow limit 172800 weight total
      _ ≤ limit * 172800 * weight.toNat / total := Nat.div_le_div_right (Nat.mod_le _ _)
      _ ≤ limit * 172800 * total / total := Nat.div_le_div_right (Nat.mul_le_mul_left _ (by omega))
      _ = limit * 172800 := Nat.mul_div_cancel _ (Nat.pos_of_ne_zero ht)
      _ ≤ int64Max := hcap

end

section

variable {db d : Db} {a b : AccountName} {cpu net slot i j : ℕ} {clock : ℕ → Time}

structure Queryable (db : Db) : Prop where
  cpuWindow : db.config.accountCpuUsageAverageWindow = 172800
  netWindow : db.config.accountNetUsageAverageWindow = 172800
  hasCount : ∀ a, HasCount db a
  hasUsage : ∀ a w, db.limits.find? a = some w ∨ db.pendingLimits.find? a = some w → ∃ u, db.usage.find? a = some u
  fits : ∀ a u, db.usage.find? a = some u → u.cpuUsage.valueEx < 2 ^ 64 ∧ u.netUsage.valueEx < 2 ^ 64

lemma add_valueEx_lt {u v : UsageAccumulator} {units ordinal windowSize : ℕ} (h : u.add units ordinal windowSize = .ok v) :
    v.valueEx < 2 ^ 64 := by
  obtain ⟨-, _, -, rfl⟩ := MovingAverage.add_ok_iff.mp h
  exact Nat.mod_lt _ (by decide)

section

variable (h : Queryable db)

include h

lemma Queryable.updateUsage (hok : db.updateUsage cpu net slot a = .ok d) : Queryable d := by
  obtain ⟨u, n, c, hu, hn, hc, rfl⟩ := updateUsage_ok.mp hok
  refine { h with hasUsage := ?_, fits := ?_ }
  · exact fun b w hw => exists_find?_set (h.hasUsage b w hw)
  · exact forall_set h.fits ⟨add_valueEx_lt hc, add_valueEx_lt hn⟩

lemma Queryable.recordDay (a : AccountName) (perDay : UsagePerDayAccumulator) :
    Queryable (db.withPerDay (db.usagePerDay.set a perDay)) := by
  exact { h with hasCount := fun b w hw => exists_find?_set (h.hasCount b w hw) }

lemma Queryable.billAccounts {accounts : List AccountName}
    (hok : db.billAccounts cpu net slot accounts clock i = (.ok d, j)) : Queryable d :=
  billAccounts_rule (fun _ _ a perDay h hu => (h.updateUsage hu).recordDay a perDay) h hok

lemma Queryable.initializeAccount (hok : db.initializeAccount a = .ok d) : Queryable d := by
  have hcount : ∀ b, HasCount d b := fun b =>
    (initializeAccount_count hok : CountStep (fun _ => maxTime) 0 0 b _ db d).hasCount (h.hasCount b)
  obtain ⟨_, hl, hok⟩ := bind_ok hok
  obtain ⟨_, hu, hok⟩ := bind_ok hok
  obtain ⟨_, _, hok⟩ := bind_ok hok
  cases hok
  obtain ⟨_, rfl⟩ := createRow_ok hl
  obtain ⟨_, rfl⟩ := createRow_ok hu
  refine ⟨h.cpuWindow, h.netWindow, hcount, ?_, ?_⟩
  · intro b w hw
    by_cases he : a = b
    · subst he
      exact ⟨_, find?_set_self _ _ _⟩
    · rw [find?_set_of_ne _ _ he] at hw
      exact exists_find?_set (h.hasUsage b w hw)
  · exact forall_set h.fits ⟨by decide, by decide⟩

lemma Queryable.setAccountLimits {l : Limits} {decreased : Bool} (hok : db.setAccountLimits a l = .ok (decreased, d)) :
    Queryable d := by
  obtain ⟨old, hold, hok⟩ := bind_ok hok
  cases hok
  have hrow := getAccountLimits_some hold
  refine { h with hasCount := ?_, hasUsage := ?_ } <;> intro b w hw <;> by_cases he : a = b
  · exact he ▸ h.hasCount a old hrow
  · rw [find?_set_of_ne _ _ he] at hw
    exact h.hasCount b w hw
  · exact he ▸ h.hasUsage a old hrow
  · rw [find?_set_of_ne _ _ he] at hw
    exact h.hasUsage b w hw

lemma Queryable.processLimitUpdate {e : AccountName × Limits} (hok : db.processLimitUpdate e = .ok d) :
    Queryable d := by
  obtain ⟨actual, state, hrow, rfl⟩ := processLimitUpdate_eq hok
  refine { h with hasCount := ?_, hasUsage := ?_ } <;> intro b w hw <;> by_cases he : e.1 = b
  · exact he ▸ h.hasCount e.1 actual (.inl hrow)
  · rw [find?_set_of_ne _ _ he, find?_erase_of_ne _ he] at hw
    exact h.hasCount b w hw
  · exact he ▸ h.hasUsage e.1 actual (.inl hrow)
  · rw [find?_set_of_ne _ _ he, find?_erase_of_ne _ he] at hw
    exact h.hasUsage b w hw

lemma Queryable.perform {call : Call} (hp : Performed clock i j db call d) : Queryable d := by
  cases hp with
  | initializeAccount hok => exact h.initializeAccount hok
  | setBlockParameters hok =>
    iterate 2 obtain ⟨_, _, hok⟩ := bind_ok hok
    cases hok
    exact { h with }
  | setAccountLimits hok => exact h.setAccountLimits hok
  | processAccountLimitUpdates hok => exact foldlM_invariant (fun _ _ _ hs ht => hs.processLimitUpdate ht) h hok
  | updateAccountUsage hok => exact foldlM_invariant (fun _ _ _ hs ht => hs.updateUsage ht) h hok
  | addTransactionUsage hb hp =>
    obtain ⟨state, rfl⟩ := addPendingUsage_eq hp
    exact { h.billAccounts hb with }
  | processBlockUsage hok =>
    obtain ⟨state, rfl⟩ := processBlockUsage_eq hok
    exact { h with }
  | getAccountCpuLimit | getAccountNetLimit => exact h

end

lemma Operated.queryable (h : Operated db) : Queryable db := by
  induction h with
  | start =>
    refine ⟨rfl, rfl, ?_, ?_, ?_⟩
    · rintro a w (hw | hw) <;> cases hw
    · rintro a w (hw | hw) <;> cases hw
    · intro a u hu
      cases hu
  | call _ _ hok ih => exact ih.perform (perform_performed hok)
  | free _ _ _ ih => exact { ih with }

end

section

variable {db : Db} {a : AccountName} {w : Limits}

theorem limit_queries_total_iff (h : Operated db) (hw : db.getAccountLimits a = .ok w) (elastic : Bool) :
    ∃ l, db.getAccountLimitsXos a = .ok l ∧
      ((∃ r, db.getAccountCpuLimitEx a elastic = .ok r ∧ r.Proper) ↔
        ShareFits (db.cpuShared elastic) l.cpuWeight db.state.totalCpuWeight) ∧
      ((∃ r, db.getAccountNetLimitEx a elastic = .ok r ∧ r.Proper) ↔
        ShareFits (db.netShared elastic) l.netWeight db.state.totalNetWeight) ∧
      (l.cpuWeight ≤ db.state.totalCpuWeight → db.cpuShared elastic ≤ 53375995583650 →
        ShareFits (db.cpuShared elastic) l.cpuWeight db.state.totalCpuWeight) ∧
      (l.netWeight ≤ db.state.totalNetWeight → db.netShared elastic ≤ 53375995583650 →
        ShareFits (db.netShared elastic) l.netWeight db.state.totalNetWeight) := by
  have hq := h.queryable
  have hrow := getAccountLimits_some hw
  obtain ⟨u, hu⟩ := hq.hasUsage a w hrow
  obtain ⟨day, hday⟩ := hq.hasCount a w hrow
  obtain ⟨hcpu, hnet⟩ := hq.fits a u hu
  obtain ⟨l, hl⟩ : ∃ l, db.getAccountLimitsXos a = .ok l :=
    ⟨_, result_bind.mpr ⟨w, hw, result_bind.mpr ⟨day, getRow_ok.mpr hday, rfl⟩⟩⟩
  refine ⟨l, hl, ?_, ?_, shareFits_of_counted, shareFits_of_counted⟩
  · rw [ShareFits, ← accountLimit_proper_iff (used_fits hcpu), getAccountCpuLimitEx, getRow_ok.mpr hu, hl, hq.cpuWindow]
    rfl
  · rw [ShareFits, ← accountLimit_proper_iff (used_fits hnet), getAccountNetLimitEx, getRow_ok.mpr hu, hl, hq.netWindow]
    rfl

end

section

lemma operated_trail {free : ℕ} (hf : free < 2 ^ 16) (clock : ℕ → Time) (a : AccountName) {calls : List Call}
    (hc : ∀ c ∈ calls, c.Admissible) : Operated (trail free clock a calls).2.1 := by
  induction calls using List.reverseRecOn with
  | nil => exact .free free hf .start
  | append_singleton calls c ih =>
    have hprev := ih fun x hx => hc x (List.mem_append_left _ hx)
    rw [trail, List.foldl_append]
    change Operated (outcome _ (perform _ c clock _).1).2
    rcases hp : perform (trail free clock a calls).2.1 c clock (trail free clock a calls).1 with ⟨e | r, j⟩
    · rw [trail] at hp
      rw [hp]
      exact hprev
    · have hnext := Operated.call hprev (hc c (by simp)) hp
      rw [trail] at hp
      rw [hp]
      exact hnext

def overweight : List Call :=
  [.initializeAccount 1, .initializeAccount 2, .setAccountLimits 2 ⟨-1, 1, 1⟩, .processAccountLimitUpdates,
    .addTransactionUsage ⟨[1], one_ascending⟩ 0 0 1, .setAccountLimits 1 ⟨-1, 2 ^ 63 - 1, 2 ^ 63 - 1⟩]

def overweightDb : Db := (trail 0 tick 1 overweight).2.1

lemma overweight_admissible : ∀ c ∈ overweight, c.Admissible := by
  simp [overweight, Call.Admissible, int64Range, int64Max, uint64Max]

lemma overweightDb_operated : Operated overweightDb := operated_trail (by decide) tick 1 overweight_admissible

theorem overweight_queries_throw :
    Operated overweightDb ∧ overweightDb.getAccountLimits 1 = .ok ⟨-1, 2 ^ 63 - 1, 2 ^ 63 - 1⟩ ∧
    ∀ elastic, (overweightDb.getAccountCpuLimitEx 1 elastic).toBool = false ∧
      (overweightDb.getAccountNetLimitEx 1 elastic).toBool = false := by
  refine ⟨overweightDb_operated, by decide +kernel, ?_⟩
  decide +kernel

theorem overweight_queries_total_iff :
    ∃ l, overweightDb.getAccountLimitsXos 2 = .ok l ∧
      ((∃ r, overweightDb.getAccountCpuLimitEx 2 true = .ok r ∧ r.Proper) ↔
        ShareFits (overweightDb.cpuShared true) l.cpuWeight overweightDb.state.totalCpuWeight) ∧
      ((∃ r, overweightDb.getAccountNetLimitEx 2 true = .ok r ∧ r.Proper) ↔
        ShareFits (overweightDb.netShared true) l.netWeight overweightDb.state.totalNetWeight) ∧
      (l.cpuWeight ≤ overweightDb.state.totalCpuWeight → overweightDb.cpuShared true ≤ 53375995583650 →
        ShareFits (overweightDb.cpuShared true) l.cpuWeight overweightDb.state.totalCpuWeight) ∧
      (l.netWeight ≤ overweightDb.state.totalNetWeight → overweightDb.netShared true ≤ 53375995583650 →
        ShareFits (overweightDb.netShared true) l.netWeight overweightDb.state.totalNetWeight) :=
  have hw : overweightDb.getAccountLimits 2 = .ok ⟨-1, 1, 1⟩ := by decide +kernel
  limit_queries_total_iff overweightDb_operated hw true

end

end Db

end XosChain.ResourceLimits
