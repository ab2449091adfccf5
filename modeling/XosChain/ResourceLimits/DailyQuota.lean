import XosChain.ResourceLimits.Clock

namespace XosChain.ResourceLimits

open Lib FlatMap List

def Time.day (t : Time) : ℕ := t.secSinceEpoch / UsagePerDayAccumulator.secondsOfDay * UsagePerDayAccumulator.secondsOfDay

def Time.utcDay (t : Time) : ℤ := t.val / 86400000000

def streak : List Time → ℕ
  | [] => 0
  | s :: log => (log.takeWhile (·.day = s.day)).length + 1

def billedOn (log : List Time) (day : ℤ) : ℕ := log.countP (·.utcDay = day)

section

variable {log : List Time} {s t : Time}

lemma secSinceEpoch_eq (h0 : 0 ≤ t.val) (h : t.val < 2 ^ 32 * 1000000) : (t.secSinceEpoch : ℤ) = t.val / 1000000 := by
  rw [Time.secSinceEpoch, Int.tdiv_eq_ediv_of_nonneg h0]
  omega

lemma day_eq_iff (hs0 : 0 ≤ s.val) (hs : s.val < 2 ^ 32 * 1000000) (ht0 : 0 ≤ t.val) (ht : t.val < 2 ^ 32 * 1000000) :
    s.day = t.day ↔ s.utcDay = t.utcDay := by
  have hsec := secSinceEpoch_eq hs0 hs
  have htec := secSinceEpoch_eq ht0 ht
  rw [Time.day, Time.day, Time.utcDay, Time.utcDay, UsagePerDayAccumulator.secondsOfDay]
  omega

lemma utcDay_mono (h : s ≤ t) : s.utcDay ≤ t.utcDay := Int.ediv_le_ediv (by decide) h

lemma length_takeWhile_day (hp : log.Pairwise (· ≥ ·)) (hd : ∀ r ∈ log, r ≤ s)
    (he : ∀ r ∈ log, r.day = s.day ↔ r.utcDay = s.utcDay) :
    (log.takeWhile (·.day = s.day)).length = billedOn log s.utcDay := by
  induction log with
  | nil => rfl
  | cons r log ih =>
    obtain ⟨hr, hp⟩ := pairwise_cons.mp hp
    have hday := he r mem_cons_self
    by_cases h : r.utcDay = s.utcDay
    · have hrest := ih hp (fun x hx => hd x (mem_cons_of_mem r hx)) fun x hx => he x (mem_cons_of_mem r hx)
      rw [takeWhile_cons_of_pos (by simpa using hday.mpr h), length_cons, hrest, billedOn, billedOn,
        countP_cons_of_pos (by simpa using h)]
    · have hlt : r.utcDay < s.utcDay := lt_of_le_of_ne (utcDay_mono (hd r mem_cons_self)) h
      rw [takeWhile_cons_of_neg (by simpa using mt hday.mp h), billedOn,
        countP_cons_of_neg (by simpa using h), length_nil, eq_comm, countP_eq_zero]
      intro x hx
      simpa using ((utcDay_mono (hr x hx)).trans_lt hlt).ne

lemma streak_eq_billedOn (hp : (s :: log).Pairwise (· ≥ ·)) (h0 : ∀ r ∈ s :: log, 0 ≤ r.val)
    (hs : s.val < 2 ^ 32 * 1000000) : streak (s :: log) = billedOn (s :: log) s.utcDay := by
  obtain ⟨hr, hp⟩ := pairwise_cons.mp hp
  rw [streak, length_takeWhile_day hp hr, billedOn, billedOn, countP_cons_of_pos (by simp)]
  intro r hmem
  have hle : r.val ≤ s.val := hr r hmem
  exact day_eq_iff (h0 r (mem_cons_of_mem s hmem)) (hle.trans_lt hs) (h0 s mem_cons_self) hs

lemma billedOn_of_lt {day : ℤ} (hp : (s :: log).Pairwise (· ≥ ·)) (h : s.utcDay < day) : billedOn (s :: log) day = 0 := by
  rw [billedOn, countP_eq_zero]
  intro r hr
  have hle : r.utcDay ≤ s.utcDay := by
    rcases mem_cons.mp hr with rfl | hr
    · exact le_rfl
    · exact utcDay_mono ((pairwise_cons.mp hp).1 r hr)
  simpa using (hle.trans_lt h).ne

end

namespace Db

def logged (clock : ℕ → Time) (i : ℕ) (a : AccountName) (call : Call) : Result (Response × Db) → List Time
  | .ok _ => if a ∈ Call.accounts call then [clock (i + 2 * (Call.accounts call).idxOf a + 1)] else []
  | .error _ => []

inductive Reached (free : ℕ) (clock : ℕ → Time) (a : AccountName) : ℕ → Db → List Time → Prop
  | start : Reached free clock a 0 { initializeDatabase with freeResourceLimitPerDay := free } []
  | call {i : ℕ} {db : Db} {log : List Time} (c : Call) : Reached free clock a i db log →
    Reached free clock a (db.perform c clock i).2 (db.outcome (db.perform c clock i).1).2
      (logged clock i a c (db.perform c clock i).1 ++ log)

def QuotaKept (free : ℕ) (log : List Time) (t : Time) (w l : Limits) : Prop :=
  if billedOn log t.utcDay ≤ free then l.netWeight = -1 ∧ l.cpuWeight = -1
  else l.netWeight = w.netWeight ∧ l.cpuWeight = w.cpuWeight

def Forward {α : Type} (x : Timed α) : Prop := ∀ clock i, i ≤ (x clock i).2

lemma composes_forward : Composes Forward := by
  refine ⟨fun _ _ _ => le_rfl, fun _ i => Nat.le_succ i, ?_⟩
  intro α β x f hx hf clock i
  have h := hx clock i
  simp only [Bind.bind]
  rcases hr : x clock i with ⟨e | a, k⟩
  · rw [hr] at h
    exact h
  · rw [hr] at h
    exact h.trans (hf a clock k)

section

variable {db d : Db} {a : AccountName} {cpu net slot i j : ℕ} {clock : ℕ → Time} {accounts : List AccountName}

lemma updateUsage_eq (h : db.updateUsage cpu net slot a = .ok d) : ∃ usage, d = { db with usage } := by
  obtain ⟨u, n, c, -, -, -, hd⟩ := updateUsage_ok.mp h
  exact ⟨_, hd⟩

lemma updateAccountUsage_eq {accounts : Accounts} (h : db.updateAccountUsage accounts slot = .ok d) :
    ∃ usage, d = { db with usage } := by
  have hfold : accounts.val.foldlM (fun db a => db.updateUsage 0 0 slot a) db = .ok d := h
  refine foldlM_invariant (P := fun d : Db => ∃ usage, d = { db with usage }) ?_ ⟨db.usage, rfl⟩ hfold
  rintro s b t ⟨usage, rfl⟩ ht
  obtain ⟨usage', rfl⟩ := updateUsage_eq ht
  exact ⟨usage', rfl⟩

lemma addPendingUsage_eq (h : db.addPendingUsage cpu net = .ok d) : ∃ state, d = { db with state } := by
  obtain ⟨_, h⟩ := eosAssert_ok h
  obtain ⟨_, h⟩ := eosAssert_ok h
  exact ⟨_, (Except.ok.inj h).symm⟩

lemma billAccounts_cons (h : db.billAccounts cpu net slot (a :: accounts) clock i = (.ok d, j)) :
    ∃ u usage, db.usagePerDay.find? a = some u ∧ u.currentTime.val < (clock i).val ∧
      billAccounts cpu net slot
        { db with
          usage
          usagePerDay := db.usagePerDay.set a (u.record (clock i) (clock (i + 1)).secSinceEpoch 1) }
        accounts clock (i + 2) = (.ok d, j) := by
  obtain ⟨_, db1, u, -, hu, hfind, htime, -, h⟩ := billAccounts_cons_ok.mp h
  obtain ⟨usage, rfl⟩ := updateUsage_eq hu
  exact ⟨u, usage, hfind, htime, h⟩

lemma billAccounts_eq (h : db.billAccounts cpu net slot accounts clock i = (.ok d, j)) :
    (∃ usage usagePerDay, d = { db with usage, usagePerDay }) ∧ j = i + 2 * accounts.length := by
  induction accounts generalizing db i with
  | nil =>
    obtain ⟨hd, rfl⟩ := Prod.mk.inj h
    exact ⟨⟨db.usage, db.usagePerDay, (Except.ok.inj hd).symm⟩, rfl⟩
  | cons a accounts ih =>
    obtain ⟨u, usage, _, _, h⟩ := billAccounts_cons h
    obtain ⟨⟨usage', m, rfl⟩, rfl⟩ := ih h
    refine ⟨⟨usage', m, rfl⟩, ?_⟩
    rw [length_cons]
    omega

lemma billAccounts_other (ha : a ∉ accounts) (h : db.billAccounts cpu net slot accounts clock i = (.ok d, j)) :
    d.usagePerDay.find? a = db.usagePerDay.find? a := by
  induction accounts generalizing db i with
  | nil =>
    obtain rfl := Except.ok.inj (congrArg Prod.fst h)
    rfl
  | cons b accounts ih =>
    obtain ⟨hne, ha⟩ := not_or.mp (mt mem_cons.mpr ha)
    obtain ⟨u, usage, _, _, h⟩ := billAccounts_cons h
    rw [ih ha h]
    exact find?_set_of_ne _ _ (Ne.symm hne)

lemma billAccounts_billed (hn : accounts.Nodup) (ha : a ∈ accounts)
    (h : db.billAccounts cpu net slot accounts clock i = (.ok d, j)) :
    ∃ u k, k = i + 2 * accounts.idxOf a ∧ k + 1 < j ∧ db.usagePerDay.find? a = some u ∧
      u.currentTime.val < (clock k).val ∧
      d.usagePerDay.find? a = some (u.record (clock k) (clock (k + 1)).secSinceEpoch 1) := by
  induction accounts generalizing db i with
  | nil => cases ha
  | cons b accounts ih =>
    obtain ⟨hb, hn⟩ := nodup_cons.mp hn
    obtain ⟨u, usage, hfind, htime, h⟩ := billAccounts_cons h
    by_cases he : b = a
    · subst he
      have hrest := billAccounts_other hb h
      obtain ⟨_, rfl⟩ := billAccounts_eq h
      refine ⟨u, i, by simp, by omega, hfind, htime, ?_⟩
      rw [hrest]
      exact find?_set_self _ _ _
    · have hmem : a ∈ accounts := (mem_cons.mp ha).resolve_left (Ne.symm he)
      obtain ⟨v, k, hk, hlt, hv, hvt, hd⟩ := ih hn hmem h
      rw [find?_set_of_ne _ _ he] at hv
      refine ⟨v, k, ?_, hlt, hv, hvt, hd⟩
      rw [hk, idxOf_cons_ne _ he]
      omega

end

section

variable {db d : Db} {a : AccountName} {i j : ℕ} {clock : ℕ → Time} {call : Call} {accounts : Accounts}

def HasCount (db : Db) (a : AccountName) : Prop :=
  ∀ w, db.limits.find? a = some w ∨ db.pendingLimits.find? a = some w → ∃ u, db.usagePerDay.find? a = some u

structure CountStep (clock : ℕ → Time) (i j : ℕ) (a : AccountName) (call : Call) (db d : Db) : Prop where
  free : d.freeResourceLimitPerDay = db.freeResourceLimitPerDay
  hasCount : HasCount db a → HasCount d a
  other : a ∉ Call.accounts call → d.usagePerDay.find? a = db.usagePerDay.find? a ∨
    db.usagePerDay.find? a = none ∧ d.usagePerDay.find? a = some {}
  billed : a ∈ Call.accounts call → ∃ u k, k = i + 2 * (Call.accounts call).idxOf a ∧ k + 1 < j ∧
    db.usagePerDay.find? a = some u ∧ u.currentTime.val < (clock k).val ∧
    d.usagePerDay.find? a = some (u.record (clock k) (clock (k + 1)).secSinceEpoch 1)

lemma CountStep.of_frame (hc : Call.accounts call = []) (hf : d.freeResourceLimitPerDay = db.freeResourceLimitPerDay)
    (hp : d.usagePerDay = db.usagePerDay) (hh : HasCount db a → HasCount d a) : CountStep clock i j a call db d where
  free := hf
  hasCount := hh
  other _ := .inl (by rw [hp])
  billed h := by
    rw [hc] at h
    cases h

lemma initializeAccount_count {b : AccountName} (h : db.initializeAccount b = .ok d) :
    CountStep clock i j a (.initializeAccount b) db d := by
  obtain ⟨_, hl, h⟩ := bind_ok h
  obtain ⟨_, _, h⟩ := bind_ok h
  obtain ⟨_, hp, h⟩ := bind_ok h
  cases h
  obtain ⟨hnone, rfl⟩ := createRow_ok hp
  obtain ⟨_, rfl⟩ := createRow_ok hl
  refine ⟨rfl, ?_, ?_, fun h => by cases h⟩
  · intro hh w hw
    by_cases he : b = a
    · subst he
      exact ⟨_, find?_set_self _ _ _⟩
    · rw [find?_set_of_ne _ _ he] at hw
      rw [find?_set_of_ne _ _ he]
      exact hh w hw
  · intro _
    by_cases he : b = a
    · subst he
      exact .inr ⟨hnone, find?_set_self _ _ _⟩
    · exact .inl (find?_set_of_ne _ _ he)

lemma setAccountLimits_count {b : AccountName} {l : Limits} {r : Bool × Db} (h : db.setAccountLimits b l = .ok r) :
    CountStep clock i j a (.setAccountLimits b l) db r.2 := by
  obtain ⟨old, hold, h⟩ := bind_ok h
  cases h
  refine .of_frame rfl rfl rfl ?_
  intro hh w hw
  by_cases he : b = a
  · subst he
    rw [getAccountLimits] at hold
    cases hp : db.pendingLimits.find? b with
    | some p => exact hh p (.inr hp)
    | none =>
      rw [hp] at hold
      exact hh old (.inl (getRow_ok.mp hold))
  · rw [find?_set_of_ne _ _ he] at hw
    exact hh w hw

lemma processLimitUpdate_eq {e : AccountName × Limits} (h : db.processLimitUpdate e = .ok d) :
    ∃ actual state, db.limits.find? e.1 = some actual ∧
      d = { db with limits := db.limits.set e.1 e.2, pendingLimits := db.pendingLimits.erase e.1, state } := by
  obtain ⟨actual, hrow, h⟩ := bind_ok h
  iterate 3 obtain ⟨_, _, h⟩ := bind_ok h
  exact ⟨actual, _, getRow_ok.mp hrow, (Except.ok.inj h).symm⟩

lemma processAccountLimitUpdates_count (h : db.processAccountLimitUpdates = .ok d) :
    CountStep clock i j a .processAccountLimitUpdates db d := by
  have hinv := foldlM_invariant
    (P := fun d => d.freeResourceLimitPerDay = db.freeResourceLimitPerDay ∧ d.usagePerDay = db.usagePerDay ∧
      (HasCount db a → HasCount d a)) ?_ ⟨rfl, rfl, id⟩ h
  · exact .of_frame rfl hinv.1 hinv.2.1 hinv.2.2
  · rintro s e t ⟨hf, hp, hh⟩ ht
    obtain ⟨actual, state, hrow, rfl⟩ := processLimitUpdate_eq ht
    refine ⟨hf, hp, ?_⟩
    intro hc w hw
    by_cases he : e.1 = a
    · subst he
      exact hh hc actual (.inl hrow)
    · rw [find?_set_of_ne _ _ he, find?_erase_of_ne _ he] at hw
      exact hh hc w hw

lemma updateAccountUsage_count {slot : ℕ} (h : db.updateAccountUsage accounts slot = .ok d) :
    CountStep clock i j a (.updateAccountUsage accounts slot) db d := by
  obtain ⟨usage, rfl⟩ := updateAccountUsage_eq h
  exact .of_frame rfl rfl rfl id

lemma addTransactionUsage_count {cpu net slot : ℕ} {d' : Db}
    (hb : db.billAccounts cpu net slot accounts.val clock i = (.ok d, j)) (hp : d.addPendingUsage cpu net = .ok d') :
    CountStep clock i j a (.addTransactionUsage accounts cpu net slot) db d' := by
  obtain ⟨state, rfl⟩ := addPendingUsage_eq hp
  have hn : accounts.val.Nodup := accounts.property.imp fun hlt => ne_of_lt hlt
  have hother := fun ha : a ∉ accounts.val => billAccounts_other ha hb
  have hbilled := fun ha : a ∈ accounts.val => billAccounts_billed hn ha hb
  obtain ⟨⟨usage, m, rfl⟩, -⟩ := billAccounts_eq hb
  refine ⟨rfl, ?_, fun ha => .inl (hother ha), hbilled⟩
  intro hh w hw
  by_cases ha : a ∈ accounts.val
  · obtain ⟨_, _, _, _, _, _, hfind⟩ := hbilled ha
    exact ⟨_, hfind⟩
  · obtain ⟨u, hu⟩ := hh w hw
    exact ⟨u, (hother ha).trans hu⟩

lemma processBlockUsage_eq {n : ℕ} (h : db.processBlockUsage n = .ok d) : ∃ state, d = { db with state } := by
  iterate 4 obtain ⟨_, _, h⟩ := bind_ok h
  exact ⟨_, (Except.ok.inj h).symm⟩

lemma setBlockParameters_eq {cpu net : ElasticLimitParameters} (h : db.setBlockParameters cpu net = .ok d) :
    ∃ config, d = { db with config } := by
  obtain ⟨_, _, h⟩ := bind_ok h
  obtain ⟨_, _, h⟩ := bind_ok h
  exact ⟨_, (Except.ok.inj h).symm⟩

lemma perform_count {r : Response × Db} (h : db.perform call clock i = (.ok r, j)) : CountStep clock i j a call db r.2 := by
  obtain ⟨_, d⟩ := r
  cases perform_performed h with
  | addTransactionUsage hb hp => exact addTransactionUsage_count hb hp
  | initializeAccount h => exact initializeAccount_count h
  | setAccountLimits h => exact setAccountLimits_count h
  | processAccountLimitUpdates h => exact processAccountLimitUpdates_count h
  | updateAccountUsage h => exact updateAccountUsage_count h
  | processBlockUsage h =>
    obtain ⟨state, hd⟩ := processBlockUsage_eq h
    subst hd
    exact .of_frame rfl rfl rfl id
  | setBlockParameters h =>
    obtain ⟨config, hd⟩ := setBlockParameters_eq h
    subst hd
    exact .of_frame rfl rfl rfl id
  | getAccountCpuLimit | getAccountNetLimit => exact .of_frame rfl rfl rfl id

end

section

variable {free : ℕ} {clock : ℕ → Time} {a : AccountName} {i j : ℕ} {db d : Db} {log : List Time}

structure Counts (u : UsagePerDayAccumulator) (log : List Time) : Prop where
  usage : u.usagePerDay = streak log
  day : ∀ s ∈ log.head?, u.currentDay = s.day
  bound : (u.usagePerDay : ℤ) ≤ u.currentTime.val

lemma Counts.fresh : Counts {} [] := ⟨rfl, by simp, le_rfl⟩

lemma Counts.record {u : UsagePerDayAccumulator} (h : Counts u log) {first second : Time}
    (hlt : u.currentTime.val < first.val) : Counts (u.record first second.secSinceEpoch 1) (second :: log) := by
  have hb := h.bound
  have hmax := first.property.2
  have hcount : (if u.currentDay ≠ second.day then 0 else u.usagePerDay) = (log.takeWhile (·.day = second.day)).length := by
    cases log with
    | nil => simp [h.usage, streak]
    | cons s log =>
      have hday := h.day s rfl
      by_cases he : s.day = second.day
      · rw [if_neg (not_not.mpr (hday.trans he)), h.usage, streak, takeWhile_cons_of_pos (by simpa using he), he,
          length_cons]
      · rw [if_pos (hday.trans_ne he), takeWhile_cons_of_neg (by simpa using he), length_nil]
  have hle : (log.takeWhile (·.day = second.day)).length ≤ u.usagePerDay := by
    rw [← hcount]
    split_ifs <;> omega
  have hsum : (u.record first second.secSinceEpoch 1).usagePerDay = streak (second :: log) := by
    change ((if u.currentDay ≠ second.day then 0 else u.usagePerDay) + 1) % 2 ^ 64 = _
    rw [hcount, streak]
    exact Nat.mod_eq_of_lt (by omega)
  refine ⟨hsum, by simp [UsagePerDayAccumulator.record, Time.day], ?_⟩
  rw [hsum, streak]
  change _ ≤ first.val
  omega

structure CountInv (free : ℕ) (clock : ℕ → Time) (a : AccountName) (i : ℕ) (db : Db) (log : List Time) : Prop where
  free_eq : db.freeResourceLimitPerDay = free
  hasCount : HasCount db a
  counts : ∀ u, db.usagePerDay.find? a = some u → Counts u log
  noBills : db.usagePerDay.find? a = none → log = []
  past : ∀ s ∈ log, 0 ≤ s.val ∧ ∃ k < i, s = clock k
  newestFirst : log.Pairwise (· ≥ ·)

lemma CountInv.step (hm : Monotone clock) {call : Call} (h : CountInv free clock a i db log) (hij : i ≤ j)
    (hs : CountStep clock i j a call db d) :
    CountInv free clock a j d
      ((if a ∈ Call.accounts call then [clock (i + 2 * (Call.accounts call).idxOf a + 1)] else []) ++ log) := by
  have hpast : ∀ s ∈ log, 0 ≤ s.val ∧ ∃ k < j, s = clock k := by
    intro s hmem
    obtain ⟨h0, k, hk, rfl⟩ := h.past s hmem
    exact ⟨h0, k, hk.trans_le hij, rfl⟩
  have hfree := hs.free.trans h.free_eq
  have hcount := hs.hasCount h.hasCount
  by_cases ha : a ∈ Call.accounts call
  · rw [if_pos ha, singleton_append]
    obtain ⟨u, k, hk, hkj, hu, hlt, hd⟩ := hs.billed ha
    rw [← hk]
    have hc := h.counts u hu
    have h0 : 0 ≤ (clock (k + 1)).val := by
      have hb := hc.bound
      have hle : (clock k).val ≤ (clock (k + 1)).val := hm (Nat.le_succ k)
      omega
    refine ⟨hfree, hcount, ?_, ?_, ?_, pairwise_cons.mpr ⟨?_, h.newestFirst⟩⟩
    · intro v hv
      obtain rfl := Option.some.inj (hd.symm.trans hv)
      exact hc.record hlt
    · intro hnone
      rw [hd] at hnone
      cases hnone
    · intro s hmem
      rcases mem_cons.mp hmem with rfl | hmem
      · exact ⟨h0, k + 1, hkj, rfl⟩
      · exact hpast s hmem
    · intro s hmem
      obtain ⟨_, k', hk', rfl⟩ := h.past s hmem
      exact hm (by omega)
  · rw [if_neg ha, nil_append]
    refine ⟨hfree, hcount, ?_, ?_, hpast, h.newestFirst⟩
    · intro v hv
      rcases hs.other ha with he | ⟨hnone, hnew⟩
      · exact h.counts v (he ▸ hv)
      · obtain rfl := Option.some.inj (hnew.symm.trans hv)
        rw [h.noBills hnone]
        exact .fresh
    · intro hnone
      rcases hs.other ha with he | ⟨_, hnew⟩
      · exact h.noBills (he ▸ hnone)
      · rw [hnew] at hnone
        cases hnone

lemma CountInv.later (h : CountInv free clock a i db log) (hij : i ≤ j) : CountInv free clock a j db log where
  free_eq := h.free_eq
  hasCount := h.hasCount
  counts := h.counts
  noBills := h.noBills
  past s hs := by
    obtain ⟨h0, k, hk, rfl⟩ := h.past s hs
    exact ⟨h0, k, hk.trans_le hij, rfl⟩
  newestFirst := h.newestFirst

lemma Reached.countInv (hm : Monotone clock) (h : Reached free clock a i db log) : CountInv free clock a i db log := by
  induction h with
  | start =>
    refine ⟨rfl, ?_, ?_, fun _ => rfl, by simp, .nil⟩
    · rintro w (hw | hw) <;> cases hw
    · intro u hu
      cases hu
  | @call i db log call _ ih =>
    have hij := composes_forward.perform db call clock i
    rcases hp : db.perform call clock i with ⟨e | r, j⟩
    · rw [hp] at hij
      exact ih.later hij
    · rw [hp] at hij
      exact ih.step hm hij (perform_count hp)

end

section

variable {free : ℕ} {clock : ℕ → Time} {a : AccountName} {i j : ℕ} {db d : Db} {log : List Time} {t : Time} {w l : Limits}

lemma getAccountLimitsXos_bill {cpu net slot : ℕ} {before : List AccountName} (ha : a ∉ before)
    (h : db.billAccounts cpu net slot before clock i = (.ok d, j)) :
    d.getAccountLimitsXos a = db.getAccountLimitsXos a ∧ d.getAccountLimits a = db.getAccountLimits a := by
  have hother := billAccounts_other ha h
  obtain ⟨⟨usage, m, rfl⟩, -⟩ := billAccounts_eq h
  refine ⟨?_, rfl⟩
  have hm : m.find? a = db.usagePerDay.find? a := hother
  simp only [getAccountLimitsXos, getAccountLimits, getRow, hm]

lemma getAccountLimits_some (h : db.getAccountLimits a = .ok w) :
    db.limits.find? a = some w ∨ db.pendingLimits.find? a = some w := by
  rw [getAccountLimits] at h
  cases hp : db.pendingLimits.find? a with
  | none =>
    rw [hp] at h
    exact .inl (getRow_ok.mp h)
  | some p =>
    rw [hp] at h
    exact .inr (congrArg some (Except.ok.inj h))

lemma CountInv.query (h : CountInv free clock a i db log) (hw : db.getAccountLimits a = .ok w) :
    db.getAccountLimitsXos a = .ok
      { ramBytes := w.ramBytes
        netWeight := if streak log ≤ free then -1 else w.netWeight
        cpuWeight := if streak log ≤ free then -1 else w.cpuWeight } := by
  obtain ⟨u, hu⟩ := h.hasCount w (getAccountLimits_some hw)
  refine result_bind.mpr ⟨w, hw, result_bind.mpr ⟨u, getRow_ok.mpr hu, ?_⟩⟩
  simp only [UsagePerDayAccumulator.validate, h.free_eq, (h.counts u hu).usage]
  rfl

lemma quotaKept_iff (hnet : 0 ≤ w.netWeight) (hn : l.netWeight = if streak log ≤ free then -1 else w.netWeight)
    (hc : l.cpuWeight = if streak log ≤ free then -1 else w.cpuWeight) :
    QuotaKept free log t w l ↔ (streak log ≤ free ↔ billedOn log t.utcDay ≤ free) := by
  rw [QuotaKept, hn, hc]
  by_cases hs : streak log ≤ free
  · by_cases hb : billedOn log t.utcDay ≤ free
    · simp [hs, hb]
    · rw [if_neg hb, if_pos hs]
      exact iff_of_false (fun h => by omega) fun h => hb (h.mp hs)
  · by_cases hb : billedOn log t.utcDay ≤ free
    · rw [if_pos hb, if_neg hs]
      exact iff_of_false (fun h => by omega) fun h => hs (h.mpr hb)
    · simp [hs, hb]

lemma CountInv.streak_iff (h : CountInv free clock a i db log) (ht : ∀ s ∈ log, s ≤ t)
    (hr : t.val < 2 ^ 32 * 1000000) :
    (streak log ≤ free ↔ billedOn log t.utcDay ≤ free) ↔
    ∀ s ∈ log.head?, s.utcDay = t.utcDay ∨ billedOn log s.utcDay ≤ free := by
  cases hlog : log with
  | nil => simp [streak, billedOn]
  | cons s rest =>
    have hst : s ≤ t := ht s (hlog ▸ mem_cons_self)
    have hstv : s.val ≤ t.val := hst
    have hp := hlog ▸ h.newestFirst
    rw [streak_eq_billedOn hp (fun r hm => (h.past r (hlog ▸ hm)).1) (hstv.trans_lt hr)]
    simp only [head?_cons, Option.mem_some_iff, forall_eq']
    by_cases he : s.utcDay = t.utcDay
    · simp [he]
    · have hzero := billedOn_of_lt hp (lt_of_le_of_ne (utcDay_mono hst) he)
      simp [he, hzero]

theorem daily_quota_iff (hm : Monotone clock) (h : Reached free clock a i db log) (cpu net slot : ℕ)
    (before : List AccountName) (ha : a ∉ before)
    (hb : db.billAccounts cpu net slot before clock i = (.ok d, j)) (ht : ∀ k < j, clock k ≤ t)
    (hw : d.getAccountLimits a = .ok w) (hnet : 0 ≤ w.netWeight) :
    ∃ l, d.getAccountLimitsXos a = .ok l ∧
      (QuotaKept free log t w l ↔ (streak log ≤ free ↔ billedOn log t.utcDay ≤ free)) ∧
      (t.val < 2 ^ 32 * 1000000 →
        (QuotaKept free log t w l ↔ ∀ s ∈ log.head?, s.utcDay = t.utcDay ∨ billedOn log s.utcDay ≤ free)) := by
  obtain ⟨hx, hlim⟩ := getAccountLimitsXos_bill ha hb
  have hinv := h.countInv hm
  have hpast : ∀ s ∈ log, s ≤ t := by
    intro s hs
    obtain ⟨_, k, hk, rfl⟩ := hinv.past s hs
    have hij := composes_forward.billAccounts cpu net slot db before clock i
    rw [hb] at hij
    exact ht k (hk.trans_le hij)
  refine ⟨_, hx.trans (hinv.query (hlim ▸ hw)), quotaKept_iff hnet rfl rfl, ?_⟩
  intro hr
  exact (quotaKept_iff hnet rfl rfl).trans (hinv.streak_iff hpast hr)

end

section

def trail (free : ℕ) (clock : ℕ → Time) (a : AccountName) (calls : List Call) : ℕ × Db × List Time :=
  calls.foldl
    (fun s c =>
      let r := s.2.1.perform c clock s.1
      (r.2, (s.2.1.outcome r.1).2, logged clock s.1 a c r.1 ++ s.2.2))
    (0, { initializeDatabase with freeResourceLimitPerDay := free }, [])

lemma reached_trail (free : ℕ) (clock : ℕ → Time) (a : AccountName) (calls : List Call) :
    Reached free clock a (trail free clock a calls).1 (trail free clock a calls).2.1 (trail free clock a calls).2.2 := by
  induction calls using List.reverseRecOn with
  | nil => exact .start
  | append_singleton calls c ih =>
    rw [trail, foldl_append]
    exact .call c ih

def busyDay : List Call :=
  [.initializeAccount 1, .setAccountLimits 1 ⟨10, 20, 30⟩, .addTransactionUsage ⟨[1], one_ascending⟩ 100 200 1,
    .addTransactionUsage ⟨[1], one_ascending⟩ 100 200 1]

def tick (i : ℕ) : Time := ⟨min (i + 1) 5, by omega⟩

lemma tick_mono : Monotone tick := by
  intro i j hij
  exact Subtype.mk_le_mk.mpr (min_le_min_right _ (by omega))

def nextDay : Time := ⟨86400000000, by decide⟩

lemma tick_le_nextDay (k : ℕ) : tick k ≤ nextDay := Subtype.mk_le_mk.mpr ((min_le_right _ _).trans (by decide))

def busyDayEnd : ℕ × Db × List Time := trail 1 tick 1 busyDay

theorem busyDay_quota_not_kept :
    Reached 1 tick 1 busyDayEnd.1 busyDayEnd.2.1 busyDayEnd.2.2 ∧ (∀ k < busyDayEnd.1, tick k ≤ nextDay) ∧
    busyDayEnd.2.1.getAccountLimits 1 = .ok ⟨10, 20, 30⟩ ∧ busyDayEnd.2.1.getAccountLimitsXos 1 = .ok ⟨10, 20, 30⟩ ∧
    billedOn busyDayEnd.2.2 nextDay.utcDay = 0 ∧ ¬ QuotaKept 1 busyDayEnd.2.2 nextDay ⟨10, 20, 30⟩ ⟨10, 20, 30⟩ := by
  refine ⟨reached_trail 1 tick 1 busyDay, fun k _ => tick_le_nextDay k, by decide +kernel, by decide +kernel,
    by decide +kernel, ?_⟩
  have hzero : billedOn busyDayEnd.2.2 nextDay.utcDay ≤ 1 := by decide +kernel
  rw [QuotaKept, if_pos hzero]
  decide

theorem busyDay_quota_iff :
    ∃ l, busyDayEnd.2.1.getAccountLimitsXos 1 = .ok l ∧
      (QuotaKept 1 busyDayEnd.2.2 ⟨6, by decide⟩ ⟨10, 20, 30⟩ l ↔
        (streak busyDayEnd.2.2 ≤ 1 ↔ billedOn busyDayEnd.2.2 (Time.utcDay ⟨6, by decide⟩) ≤ 1)) ∧
      ((6 : ℤ) < 2 ^ 32 * 1000000 → (QuotaKept 1 busyDayEnd.2.2 ⟨6, by decide⟩ ⟨10, 20, 30⟩ l ↔
        ∀ s ∈ busyDayEnd.2.2.head?, s.utcDay = Time.utcDay ⟨6, by decide⟩ ∨ billedOn busyDayEnd.2.2 s.utcDay ≤ 1)) :=
  daily_quota_iff tick_mono (reached_trail 1 tick 1 busyDay) 0 0 0 [] not_mem_nil rfl
    (fun k _ => Subtype.mk_le_mk.mpr ((min_le_right _ _).trans (by decide)))
    (by decide +kernel) (by decide)

end

end Db

end XosChain.ResourceLimits
