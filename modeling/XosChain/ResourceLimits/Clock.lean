import XosChain.ResourceLimits.Manager

namespace XosChain.ResourceLimits

open Lib List

inductive Call where
  | initializeAccount (account : AccountName)
  | setBlockParameters (cpu net : ElasticLimitParameters)
  | setAccountLimits (account : AccountName) (limits : Limits)
  | processAccountLimitUpdates
  | updateAccountUsage (accounts : Accounts) (timeSlot : ℕ)
  | addTransactionUsage (accounts : Accounts) (cpu net timeSlot : ℕ)
  | processBlockUsage (blockNum : ℕ)
  | getAccountCpuLimit (account : AccountName) (elastic : Bool)
  | getAccountNetLimit (account : AccountName) (elastic : Bool)

inductive Response where
  | done
  | decreased (b : Bool)
  | limit (available : ℤ)
  deriving DecidableEq

namespace Db

def perform (db : Db) : Call → Timed (Response × Db)
  | .initializeAccount a => return (.done, ← (db.initializeAccount a : Result Db))
  | .setBlockParameters cpu net => return (.done, ← (db.setBlockParameters cpu net : Result Db))
  | .setAccountLimits a l => do
    let r ← (db.setAccountLimits a l : Result (Bool × Db))
    return (.decreased r.1, r.2)
  | .processAccountLimitUpdates => return (.done, ← (db.processAccountLimitUpdates : Result Db))
  | .updateAccountUsage accounts slot => return (.done, ← (db.updateAccountUsage accounts slot : Result Db))
  | .addTransactionUsage accounts cpu net slot => return (.done, ← db.addTransactionUsage accounts cpu net slot)
  | .processBlockUsage n => return (.done, ← (db.processBlockUsage n : Result Db))
  | .getAccountCpuLimit a elastic => do
    let l ← (db.getAccountCpuLimitEx a elastic : Result AccountResourceLimit)
    return (.limit l.available, db)
  | .getAccountNetLimit a elastic => do
    let l ← (db.getAccountNetLimitEx a elastic : Result AccountResourceLimit)
    return (.limit l.available, db)

def outcome (db : Db) : Result (Response × Db) → Option Response × Db
  | .ok r => (some r.1, r.2)
  | .error _ => (none, db)

def run (clock : ℕ → Time) : ℕ → Db → List Call → List (Option Response) × Db
  | _, db, [] => ([], db)
  | i, db, call :: calls =>
    let r := db.perform call clock i
    (run clock r.2 (db.outcome r.1).2 calls).map ((db.outcome r.1).1 :: ·) id

def maxTime : Time := ⟨2 ^ 63 - 1, by decide⟩

def Call.accounts : Call → List AccountName
  | .addTransactionUsage accounts _ _ _ => accounts.val
  | _ => []

def Bills (db : Db) (call : Call) : Prop :=
  Call.accounts call ≠ [] ∧ ∃ r j, db.perform call (fun _ => maxTime) 0 = (.ok r, j)

def NeverBills : Db → List Call → Prop
  | _, [] => True
  | db, call :: calls =>
    ¬ Bills db call ∧ NeverBills (db.outcome (db.perform call (fun _ => maxTime) 0).1).2 calls

def ClockIndependent (db : Db) (calls : List Call) : Prop :=
  ∀ clock clock' : ℕ → Time, Monotone clock → Monotone clock' → run clock 0 db calls = run clock' 0 db calls

end Db

lemma timed_bind {α β : Type} {x : Timed α} {f : α → Timed β} {clock : ℕ → Time} {i j : ℕ} {b : β} :
    (x >>= f) clock i = (.ok b, j) ↔ ∃ a k, x clock i = (.ok a, k) ∧ f a clock k = (.ok b, j) := by
  constructor
  · intro h
    simp only [bind] at h
    rcases hx : x clock i with ⟨e | a, k⟩
    · simp [hx] at h
    · rw [hx] at h
      exact ⟨a, k, rfl, h⟩
  · rintro ⟨a, k, hx, hf⟩
    simp only [bind, hx]
    exact hf

lemma timed_lift {α : Type} {r : Result α} {clock : ℕ → Time} {i j : ℕ} {a : α} :
    (liftM r : Timed α) clock i = (.ok a, j) ↔ r = .ok a ∧ i = j := by
  constructor
  · intro h
    exact ⟨congrArg Prod.fst h, congrArg Prod.snd h⟩
  · rintro ⟨rfl, rfl⟩
    rfl

namespace Db

def withPerDay (db : Db) (m : FlatMap AccountName UsagePerDayAccumulator) : Db := { db with usagePerDay := m }

lemma withPerDay_self (db : Db) : db.withPerDay db.usagePerDay = db := rfl

@[simp] lemma withPerDay_usagePerDay (db : Db) (m : FlatMap AccountName UsagePerDayAccumulator) :
    (db.withPerDay m).usagePerDay = m := rfl

section

variable {db d : Db} {m : FlatMap AccountName UsagePerDayAccumulator} {a : AccountName} {cpu net slot : ℕ}

lemma getAccountLimitsXos_withPerDay (h : m.find? a = db.usagePerDay.find? a) :
    (db.withPerDay m).getAccountLimitsXos a = db.getAccountLimitsXos a := by
  simp only [getAccountLimitsXos, getAccountLimits, withPerDay, getRow, h]

lemma updateUsage_ok : db.updateUsage cpu net slot a = .ok d ↔
    ∃ u n c, db.usage.find? a = some u ∧ u.netUsage.add net slot db.config.accountNetUsageAverageWindow = .ok n ∧
      u.cpuUsage.add cpu slot db.config.accountCpuUsageAverageWindow = .ok c ∧
      d = { db with usage := db.usage.set a { u with netUsage := n, cpuUsage := c } } := by
  constructor
  · intro h
    obtain ⟨u, hu, h⟩ := bind_ok h
    obtain ⟨n, hn, h⟩ := bind_ok h
    obtain ⟨c, hc, h⟩ := bind_ok h
    cases h
    exact ⟨u, n, c, getRow_ok.mp hu, hn, hc, rfl⟩
  · rintro ⟨u, n, c, hu, hn, hc, rfl⟩
    exact result_bind.mpr ⟨u, getRow_ok.mpr hu, result_bind.mpr ⟨n, hn, result_bind.mpr ⟨c, hc, rfl⟩⟩⟩

lemma updateUsage_withPerDay (h : db.updateUsage cpu net slot a = .ok d) :
    (db.withPerDay m).updateUsage cpu net slot a = .ok (d.withPerDay m) ∧ d.usagePerDay = db.usagePerDay := by
  obtain ⟨u, n, c, hu, hn, hc, rfl⟩ := updateUsage_ok.mp h
  exact ⟨updateUsage_ok.mpr ⟨u, n, c, hu, hn, hc, rfl⟩, rfl⟩

lemma addPendingUsage_withPerDay (h : db.addPendingUsage cpu net = .ok d) :
    (db.withPerDay m).addPendingUsage cpu net = .ok (d.withPerDay m) := by
  obtain ⟨hc, h⟩ := eosAssert_ok h
  obtain ⟨hn, h⟩ := eosAssert_ok h
  cases h
  exact eosAssert_bind.mpr ⟨hc, eosAssert_bind.mpr ⟨hn, rfl⟩⟩

lemma addTransactionUsageXos_ok {clock : ℕ → Time} {i j : ℕ} :
    db.addTransactionUsageXos a clock i = (.ok d, j) ↔
    ∃ u, db.usagePerDay.find? a = some u ∧ u.currentTime.val < (clock i).val ∧ j = i + 2 ∧
      d = db.withPerDay (db.usagePerDay.set a (u.record (clock i) (clock (i + 1)).secSinceEpoch 1)) := by
  simp only [addTransactionUsageXos, UsagePerDayAccumulator.add, getRow]
  cases hu : db.usagePerDay.find? a with
  | none => simp [bind, liftM, monadLift, MonadLift.monadLift]
  | some u =>
    by_cases ht : u.currentTime.val < (clock i).val
    · simp [bind, liftM, monadLift, MonadLift.monadLift, now, eosAssert, ht, pure, Except.pure, withPerDay, eq_comm, and_comm,
        -Subtype.coe_lt_coe]
    · simp [bind, liftM, monadLift, MonadLift.monadLift, now, eosAssert, ht, pure, Except.pure, -Subtype.coe_lt_coe]

end

lemma val_le_maxTime (t : Time) : t.val ≤ maxTime.val := Int.le_of_lt_add_one t.property.2

section

variable {db d : Db} {cpu net slot : ℕ} {clock : ℕ → Time} {accounts : List AccountName} {i j : ℕ}

lemma billAccounts_cons_ok {a : AccountName} :
    db.billAccounts cpu net slot (a :: accounts) clock i = (.ok d, j) ↔
    ∃ l db1 u, db.getAccountLimitsXos a = .ok l ∧ db.updateUsage cpu net slot a = .ok db1 ∧
      db1.usagePerDay.find? a = some u ∧ u.currentTime.val < (clock i).val ∧ db1.checkWeights a l = .ok () ∧
      (db1.withPerDay (db1.usagePerDay.set a (u.record (clock i) (clock (i + 1)).secSinceEpoch 1))).billAccounts
        cpu net slot accounts clock (i + 2) = (.ok d, j) := by
  constructor
  · intro h
    obtain ⟨l, _, hlift, h⟩ := timed_bind.mp h
    obtain ⟨hl, rfl⟩ := timed_lift.mp hlift
    obtain ⟨db1, _, hlift, h⟩ := timed_bind.mp h
    obtain ⟨hu, rfl⟩ := timed_lift.mp hlift
    obtain ⟨db2, _, hx, h⟩ := timed_bind.mp h
    obtain ⟨u, hfind, htime, rfl, rfl⟩ := addTransactionUsageXos_ok.mp hx
    obtain ⟨_, _, hlift, h⟩ := timed_bind.mp h
    obtain ⟨hw, rfl⟩ := timed_lift.mp hlift
    exact ⟨l, db1, u, hl, hu, hfind, htime, hw, h⟩
  · rintro ⟨l, db1, u, hl, hu, hfind, htime, hw, h⟩
    refine timed_bind.mpr ⟨l, i, timed_lift.mpr ⟨hl, rfl⟩, timed_bind.mpr ⟨db1, i, timed_lift.mpr ⟨hu, rfl⟩, ?_⟩⟩
    refine timed_bind.mpr ⟨_, i + 2, addTransactionUsageXos_ok.mpr ⟨u, hfind, htime, rfl, rfl⟩, ?_⟩
    exact timed_bind.mpr ⟨(), i + 2, timed_lift.mpr ⟨hw, rfl⟩, h⟩

lemma billAccounts_rule {P : Db → Prop}
    (hstep : ∀ db d a perDay, P db → db.updateUsage cpu net slot a = .ok d → P (d.withPerDay (d.usagePerDay.set a perDay)))
    (hP : P db) (h : db.billAccounts cpu net slot accounts clock i = (.ok d, j)) : P d := by
  induction accounts generalizing db i with
  | nil =>
    obtain rfl := Except.ok.inj (congrArg Prod.fst h)
    exact hP
  | cons a accounts ih =>
    obtain ⟨_, db1, u, -, hu, -, -, -, h⟩ := billAccounts_cons_ok.mp h
    exact ih (hstep db db1 a _ hP hu) h

lemma billAccounts_maxTime (hn : accounts.Nodup) (m : FlatMap AccountName UsagePerDayAccumulator)
    (hm : ∀ a ∈ accounts, m.find? a = db.usagePerDay.find? a)
    (h : db.billAccounts cpu net slot accounts clock i = (.ok d, j)) (k : ℕ) :
    ∃ m' k', (db.withPerDay m).billAccounts cpu net slot accounts (fun _ => maxTime) k = (.ok (d.withPerDay m'), k') := by
  induction accounts generalizing db m i k with
  | nil =>
    obtain rfl := Except.ok.inj (congrArg Prod.fst h)
    exact ⟨m, k, rfl⟩
  | cons a accounts ih =>
    obtain ⟨l, db1, u, hl, hu, hfind, htime, hw, h⟩ := billAccounts_cons_ok.mp h
    have ha := hm a mem_cons_self
    obtain ⟨hu', hper⟩ := updateUsage_withPerDay (m := m) hu
    have hm' : ∀ b ∈ accounts, (m.set a (u.record maxTime maxTime.secSinceEpoch 1)).find? b =
        (db1.withPerDay (db1.usagePerDay.set a (u.record (clock i) (clock (i + 1)).secSinceEpoch 1))).usagePerDay.find? b := by
      intro b hb
      have hne : a ≠ b := by
        rintro rfl
        exact (nodup_cons.mp hn).1 hb
      rw [withPerDay_usagePerDay, FlatMap.find?_set_of_ne _ _ hne, FlatMap.find?_set_of_ne _ _ hne, hper]
      exact hm b (mem_cons_of_mem a hb)
    obtain ⟨m', k', hrest⟩ := ih (nodup_cons.mp hn).2 _ hm' h (k + 2)
    exact ⟨m', k', billAccounts_cons_ok.mpr ⟨l, _, u, (getAccountLimitsXos_withPerDay ha).trans hl, hu',
      ha.trans (hper ▸ hfind), htime.trans_le (val_le_maxTime _), hw, hrest⟩⟩

lemma billAccounts_stopped {a : AccountName} (h : db.billAccounts cpu net slot (a :: accounts) clock i = (.ok d, j)) :
    ∃ t : Time, ∀ k (r : Db × ℕ), db.billAccounts cpu net slot (a :: accounts) (fun _ => t) k ≠ (.ok r.1, r.2) := by
  obtain ⟨_, db1, u, -, hu, hfind, -⟩ := billAccounts_cons_ok.mp h
  refine ⟨u.currentTime, ?_⟩
  intro k r hr
  obtain ⟨_, db1', u', -, hu', hfind', hlt, -⟩ := billAccounts_cons_ok.mp hr
  obtain rfl := Except.ok.inj (hu.symm.trans hu')
  obtain rfl := Option.some.inj (hfind.symm.trans hfind')
  exact lt_irrefl _ hlt

end

section

variable {db : Db} {call : Call} {calls : List Call}

lemma lift_map {α β : Type} (r : Result α) (f : α → β) (clock : ℕ → Time) (i : ℕ) :
    ((liftM r : Timed α) >>= fun a => pure (f a)) clock i = (r.map f, i) := by
  cases r <;> rfl

lemma perform_silent (db : Db) (h : Call.accounts call = []) :
    ∃ r, ∀ clock i, db.perform call clock i = (r, i) := by
  cases call with
  | addTransactionUsage accounts cpu net slot =>
    obtain ⟨l, hl⟩ := accounts
    obtain rfl : l = [] := h
    refine ⟨_, fun clock i => lift_map (db.addPendingUsage cpu net) _ clock i⟩
  | initializeAccount | setBlockParameters | setAccountLimits | processAccountLimitUpdates | updateAccountUsage
  | processBlockUsage | getAccountCpuLimit | getAccountNetLimit =>
    exact ⟨_, fun clock i => lift_map _ _ clock i⟩

variable {clock : ℕ → Time} {i j : ℕ} {r : Response × Db}

lemma addTransactionUsage_ok {accounts : Accounts} {cpu net slot : ℕ}
    (h : db.perform (.addTransactionUsage accounts cpu net slot) clock i = (.ok r, j)) :
    ∃ d k, db.billAccounts cpu net slot accounts.val clock i = (.ok d, k) ∧ d.addPendingUsage cpu net = .ok r.2 := by
  obtain ⟨d', _, h, hr⟩ := timed_bind.mp h
  obtain ⟨d, k, hb, h⟩ := timed_bind.mp h
  obtain ⟨hp, _⟩ := timed_lift.mp h
  obtain rfl := Except.ok.inj (congrArg Prod.fst hr)
  exact ⟨d, k, hb, hp⟩

inductive Performed (clock : ℕ → Time) (i j : ℕ) (db : Db) : Call → Db → Prop
  | initializeAccount {a : AccountName} {d : Db} : db.initializeAccount a = .ok d →
    Performed clock i j db (.initializeAccount a) d
  | setBlockParameters {cpu net : ElasticLimitParameters} {d : Db} : db.setBlockParameters cpu net = .ok d →
    Performed clock i j db (.setBlockParameters cpu net) d
  | setAccountLimits {a : AccountName} {l : Limits} {b : Bool} {d : Db} : db.setAccountLimits a l = .ok (b, d) →
    Performed clock i j db (.setAccountLimits a l) d
  | processAccountLimitUpdates {d : Db} : db.processAccountLimitUpdates = .ok d →
    Performed clock i j db .processAccountLimitUpdates d
  | updateAccountUsage {accounts : Accounts} {slot : ℕ} {d : Db} : db.updateAccountUsage accounts slot = .ok d →
    Performed clock i j db (.updateAccountUsage accounts slot) d
  | addTransactionUsage {accounts : Accounts} {cpu net slot : ℕ} {d d' : Db} :
    db.billAccounts cpu net slot accounts.val clock i = (.ok d, j) → d.addPendingUsage cpu net = .ok d' →
    Performed clock i j db (.addTransactionUsage accounts cpu net slot) d'
  | processBlockUsage {n : ℕ} {d : Db} : db.processBlockUsage n = .ok d → Performed clock i j db (.processBlockUsage n) d
  | getAccountCpuLimit {a : AccountName} {elastic : Bool} : Performed clock i j db (.getAccountCpuLimit a elastic) db
  | getAccountNetLimit {a : AccountName} {elastic : Bool} : Performed clock i j db (.getAccountNetLimit a elastic) db

lemma perform_performed (h : db.perform call clock i = (.ok r, j)) :
    Performed clock i j db call r.2 := by
  cases call with
  | addTransactionUsage accounts cpu net slot =>
    obtain ⟨d', k, h, hr⟩ := timed_bind.mp h
    obtain ⟨d, k', hb, h⟩ := timed_bind.mp h
    obtain ⟨hp, rfl⟩ := timed_lift.mp h
    obtain ⟨hd, rfl⟩ := Prod.mk.inj hr
    cases hd
    exact .addTransactionUsage hb hp
  | getAccountCpuLimit | getAccountNetLimit =>
    obtain ⟨_, _, _, h⟩ := timed_bind.mp h
    obtain rfl := Except.ok.inj (congrArg Prod.fst h)
    constructor
  | initializeAccount | setBlockParameters | setAccountLimits | processAccountLimitUpdates | updateAccountUsage
  | processBlockUsage =>
    obtain ⟨d, _, hd, h⟩ := timed_bind.mp h
    obtain rfl := Except.ok.inj (congrArg Prod.fst h)
    constructor
    exact (timed_lift.mp hd).1

lemma perform_maxTime (h : db.perform call clock i = (.ok r, j)) :
    ∃ r' j', db.perform call (fun _ => maxTime) 0 = (.ok r', j') := by
  cases hc : Call.accounts call with
  | nil =>
    obtain ⟨o, ho⟩ := perform_silent db hc
    rw [ho] at h
    exact ⟨r, 0, by rw [ho, (Prod.mk.inj h).1]⟩
  | cons a l =>
    cases call with
    | addTransactionUsage accounts cpu net slot =>
      obtain ⟨d, _, hb, hp⟩ := addTransactionUsage_ok h
      obtain ⟨m', k', hb'⟩ := billAccounts_maxTime (accounts.property.imp (fun hlt => ne_of_lt hlt)) db.usagePerDay
        (fun _ _ => rfl) hb 0
      rw [withPerDay_self] at hb'
      have hp' : (liftM ((d.withPerDay m').addPendingUsage cpu net) : Timed Db) (fun _ => maxTime) k' =
          (.ok (r.2.withPerDay m'), k') := timed_lift.mpr ⟨addPendingUsage_withPerDay hp, rfl⟩
      exact ⟨_, k', timed_bind.mpr ⟨_, k', timed_bind.mpr ⟨_, k', hb', hp'⟩, rfl⟩⟩
    | initializeAccount | setBlockParameters | setAccountLimits | processAccountLimitUpdates | updateAccountUsage
    | processBlockUsage | getAccountCpuLimit | getAccountNetLimit => cases hc

lemma perform_stopped (h : Bills db call) :
    ∃ t : Time, ∀ i, (db.outcome (db.perform call (fun _ => t) i).1).1 = none := by
  obtain ⟨hne, r, j, h⟩ := h
  cases call with
  | addTransactionUsage accounts cpu net slot =>
    obtain ⟨l, hl⟩ := accounts
    obtain ⟨d, k, hb, _⟩ := addTransactionUsage_ok h
    cases l with
    | nil => exact absurd rfl hne
    | cons a l =>
      obtain ⟨t, ht⟩ := billAccounts_stopped hb
      refine ⟨t, ?_⟩
      intro i
      rcases hp : db.perform (.addTransactionUsage ⟨a :: l, hl⟩ cpu net slot) (fun _ => t) i with ⟨e | r, k⟩
      · rfl
      · obtain ⟨d, k, hb, _⟩ := addTransactionUsage_ok hp
        exact absurd hb (ht i (d, k))
  | initializeAccount | setBlockParameters | setAccountLimits | processAccountLimitUpdates | updateAccountUsage
  | processBlockUsage | getAccountCpuLimit | getAccountNetLimit => exact absurd rfl hne

lemma outcome_of_not_bills (h : ¬ Bills db call) (clock clock' : ℕ → Time) (i i' : ℕ) :
    db.outcome (db.perform call clock i).1 = db.outcome (db.perform call clock' i').1 := by
  by_cases hc : Call.accounts call = []
  · obtain ⟨o, ho⟩ := perform_silent db hc
    rw [ho, ho]
  · have hfail : ∀ clock i, db.outcome (db.perform call clock i).1 = (none, db) := by
      intro clock i
      rcases hp : db.perform call clock i with ⟨e | r, k⟩
      · rfl
      · exact absurd ⟨hc, perform_maxTime hp⟩ h
    rw [hfail, hfail]

end

section

structure Composes (P : {α : Type} → Timed α → Prop) : Prop where
  lift : ∀ {α : Type} (r : Result α), P (liftM r : Timed α)
  now : P now
  bind : ∀ {α β : Type} {x : Timed α} {f : α → Timed β}, P x → (∀ a, P (f a)) → P (x >>= f)

variable {P : {α : Type} → Timed α → Prop}

lemma Composes.billAccounts (h : Composes P) (cpu net slot : ℕ) (db : Db) (accounts : List AccountName) :
    P (db.billAccounts cpu net slot accounts) := by
  induction accounts generalizing db with
  | nil => exact h.lift (.ok db)
  | cons a accounts ih =>
    refine h.bind (h.lift _) fun l => h.bind (h.lift _) fun db => h.bind ?_ fun db => h.bind (h.lift _) fun _ => ih db
    refine h.bind (h.lift _) fun u => h.bind ?_ fun _ => h.lift (.ok _)
    exact h.bind h.now fun _ => h.bind (h.lift _) fun _ => h.bind h.now fun _ => h.lift (.ok _)

lemma Composes.perform (h : Composes P) (db : Db) (call : Call) : P (db.perform call) := by
  cases call with
  | addTransactionUsage accounts cpu net slot =>
    exact h.bind (h.bind (h.billAccounts cpu net slot db accounts.val) fun _ => h.lift _) fun _ => h.lift (.ok _)
  | initializeAccount | setBlockParameters | setAccountLimits | processAccountLimitUpdates | updateAccountUsage
  | processBlockUsage | getAccountCpuLimit | getAccountNetLimit => exact h.bind (h.lift _) fun _ => h.lift (.ok _)

def Steady {α : Type} (x : Timed α) : Prop := ∀ t i j, (x (fun _ => t) i).1 = (x (fun _ => t) j).1

lemma composes_steady : Composes Steady := by
  refine ⟨fun _ _ _ _ => rfl, fun _ _ _ => rfl, ?_⟩
  intro α β x f hx hf t i j
  have h := hx t i j
  simp only [Bind.bind]
  rcases hi : x (fun _ => t) i with ⟨r, k⟩
  rcases hj : x (fun _ => t) j with ⟨r', k'⟩
  rw [hi, hj] at h
  obtain rfl : r = r' := h
  cases r with
  | error e => rfl
  | ok a => exact hf a t k k'

lemma run_steady (t : Time) (i j : ℕ) (db : Db) (calls : List Call) :
    run (fun _ => t) i db calls = run (fun _ => t) j db calls := by
  induction calls generalizing i j db with
  | nil => rfl
  | cons call calls ih =>
    simp only [run]
    rw [composes_steady.perform db call t i j, ih]

end

lemma run_of_neverBills {db : Db} {calls : List Call} (h : NeverBills db calls) (clock clock' : ℕ → Time) (i i' : ℕ) :
    run clock i db calls = run clock' i' db calls := by
  induction calls generalizing db i i' with
  | nil => rfl
  | cons call calls ih =>
    simp only [run]
    have ho := outcome_of_not_bills h.1 clock clock' i i'
    have hmax := outcome_of_not_bills h.1 (fun _ => maxTime) clock' 0 i'
    rw [ho, ih (hmax ▸ h.2)]

lemma neverBills_of_run {db : Db} {calls : List Call}
    (h : ∀ t t' : Time, run (fun _ => t) 0 db calls = run (fun _ => t') 0 db calls) : NeverBills db calls := by
  induction calls generalizing db with
  | nil => trivial
  | cons call calls ih =>
    have hnot : ¬ Bills db call := by
      intro hb
      obtain ⟨t, ht⟩ := perform_stopped hb
      obtain ⟨_, r, j, hr⟩ := hb
      have hhead := congrArg (fun out => out.1.head?) (h t maxTime)
      simp only [run, hr, Prod.map_fst, head?_cons, ht] at hhead
      cases hhead
    refine ⟨hnot, ih ?_⟩
    intro t t'
    have ht := h t t'
    simp only [run] at ht
    rw [outcome_of_not_bills hnot (fun _ => t) (fun _ => maxTime) 0 0,
      outcome_of_not_bills hnot (fun _ => t') (fun _ => maxTime) 0 0] at ht
    have hsnd := congrArg Prod.snd ht
    have hfst := cons_injective (congrArg Prod.fst ht)
    rw [run_steady t _ 0, run_steady t' _ 0] at hfst hsnd
    exact Prod.ext hfst hsnd

theorem clockIndependent_iff (db : Db) (calls : List Call) : ClockIndependent db calls ↔ NeverBills db calls := by
  constructor
  · intro h
    exact neverBills_of_run (fun t t' => h _ _ monotone_const monotone_const)
  · intro h clock clock' _ _
    exact run_of_neverBills h clock clock' 0 0

def twoBills : List Call :=
  [.initializeAccount 1, .addTransactionUsage ⟨[1], one_ascending⟩ 100 200 1, .addTransactionUsage ⟨[1], one_ascending⟩ 100 200 1]

theorem twoBills_not_clockIndependent : ¬ ClockIndependent initializeDatabase twoBills := by
  intro h
  have hrun := congrArg Prod.fst (h (fun i => ⟨min (i + 1) 5, by omega⟩) (fun _ => ⟨5, by decide⟩)
    (fun i j hij => Subtype.mk_le_mk.mpr (by omega)) monotone_const)
  exact absurd hrun (by decide +kernel)

end Db

end XosChain.ResourceLimits
