import XosChain.ResourceLimits.BlockCalls

namespace XosChain.ResourceLimits

open Lib FlatMap Limits

structure LimitTables where
  inForce : FlatMap AccountName Limits := empty
  asked : FlatMap AccountName Limits := empty

def overflowThrown (which : String) : Thrown :=
  ⟨.rateLimitingStateInconsistent, s!"overflow when applying new value to {which}"⟩

namespace Db

variable {db db' : Db} {t : LimitTables} {a : AccountName} {l : Limits} {e : AccountName × Limits}
  {updates : List (AccountName × Limits)} {thrown : Thrown}

def setResourceLimits (db : Db) (account : AccountName) (l : Limits) : Result (Bool × Db) := do
  eosAssert (l.ramBytes ≥ -1) .wasmExecutionError "invalid value for ram resource limit expected [-1,INT64_MAX]"
  eosAssert (l.netWeight ≥ -1) .wasmExecutionError "invalid value for net resource weight expected [-1,INT64_MAX]"
  eosAssert (l.cpuWeight ≥ -1) .wasmExecutionError "invalid value for cpu resource weight expected [-1,INT64_MAX]"
  db.setAccountLimits account l

inductive LimitRun : LimitTables → Db → Prop
  | start : LimitRun {} initializeDatabase
  | initializeAccount {t : LimitTables} {db db' : Db} (a : AccountName) (h : LimitRun t db)
      (hs : db.initializeAccount a = .ok db') :
      LimitRun { inForce := t.inForce.set a {}, asked := t.asked.set a {} } db'
  | setResourceLimits {t : LimitTables} {db db' : Db} {decreased : Bool} (a : AccountName) (l : Limits)
      (h : LimitRun t db) (hs : db.setResourceLimits a l = .ok (decreased, db')) :
      LimitRun { t with asked := t.asked.set a l } db'
  | processAccountLimitUpdates {t : LimitTables} {db db' : Db} (h : LimitRun t db)
      (hs : db.processAccountLimitUpdates = .ok db') : LimitRun { t with inForce := t.asked } db'

lemma find?_applyLimits (m : FlatMap AccountName Limits) (h : Ascending updates) :
    (applyLimits m updates).find? a = (lookup a updates).or (m.find? a) := by
  induction updates generalizing m with
  | nil => rfl
  | cons e updates ih =>
    obtain ⟨hlt, h⟩ := List.pairwise_cons.mp h
    change (applyLimits (m.set e.1 e.2) updates).find? a = _
    rw [ih _ h, find?_set, lookup]
    split_ifs with ha
    · rw [← ha, lookup_eq_none_of_lt hlt]
      rfl
    · rfl

lemma processLimitUpdates_drains (h : db.TotalsExact) (hp : db.pendingLimits.entries = updates)
    (hok : updates.foldlM processLimitUpdate db = .ok db') :
    db'.pendingLimits.entries = [] ∧ db'.limits = applyLimits db.limits updates := by
  induction updates generalizing db with
  | nil =>
    cases hok
    exact ⟨hp, rfl⟩
  | cons e updates ih =>
    obtain ⟨db1, hstep, hok⟩ := bind_ok hok
    obtain ⟨l, hl⟩ := h.pending_covered e (hp ▸ List.mem_cons_self)
    obtain ⟨hexact, -, -, hlim⟩ := processLimitUpdate_exact h hl hstep
    have hp1 : db1.pendingLimits.entries = updates := by
      obtain ⟨-, rfl⟩ := (processLimitUpdate_iff h hl).mp hstep
      change eraseEntry e.1 db.pendingLimits.entries = updates
      rw [hp, eraseEntry, if_pos rfl]
    obtain ⟨hdone, hfinal⟩ := ih hexact hp1 hok
    refine ⟨hdone, ?_⟩
    rw [hfinal, hlim]
    rfl

lemma updateStateAndValue_error {total : ℕ} {value pending : ℤ} {which : String} (hv : value.toNat ≤ total)
    (h : updateStateAndValue total value pending which = .error thrown) : thrown = overflowThrown which := by
  rcases eosAssert_bind_error.mp h with ⟨hunder, -⟩ | ⟨-, h⟩
  · exact absurd (fun _ => hv) hunder
  · rcases eosAssert_bind_error.mp h with ⟨-, he⟩ | ⟨-, h⟩
    · exact he
    · cases h

lemma processLimitUpdate_error (h : db.TotalsExact) (hl : db.limits.find? e.1 = some l)
    (herr : db.processLimitUpdate e = .error thrown) :
    ∃ which ∈ ["ram_bytes", "cpu_weight", "net_weight"], thrown = overflowThrown which := by
  obtain ⟨-, hram⟩ := total_set ramBytes e.2 hl
  obtain ⟨-, hcpu⟩ := total_set cpuWeight e.2 hl
  obtain ⟨-, hnet⟩ := total_set netWeight e.2 hl
  rw [← h.ram] at hram
  rw [← h.cpu] at hcpu
  rw [← h.net] at hnet
  have hget := getRow_ok.mpr hl
  rw [processLimitUpdate, hget] at herr
  rcases result_bind_error.mp herr with he | ⟨actual, hactual, herr⟩
  · cases he
  cases hactual
  rcases result_bind_error.mp herr with he | ⟨ram, -, herr⟩
  · exact ⟨_, by simp, updateStateAndValue_error hram he⟩
  rcases result_bind_error.mp herr with he | ⟨cpu, -, herr⟩
  · exact ⟨_, by simp, updateStateAndValue_error hcpu he⟩
  rcases result_bind_error.mp herr with he | ⟨net, -, herr⟩
  · exact ⟨_, by simp, updateStateAndValue_error hnet he⟩
  · cases herr

lemma processLimitUpdates_error (h : db.TotalsExact) (hl : ∀ e ∈ updates, ∃ l, db.limits.find? e.1 = some l)
    (herr : updates.foldlM processLimitUpdate db = .error thrown) :
    ∃ which ∈ ["ram_bytes", "cpu_weight", "net_weight"], thrown = overflowThrown which := by
  induction updates generalizing db with
  | nil => cases herr
  | cons e updates ih =>
    obtain ⟨l, hle⟩ := hl e List.mem_cons_self
    rw [List.foldlM_cons] at herr
    rcases result_bind_error.mp herr with he | ⟨db1, hstep, herr⟩
    · exact processLimitUpdate_error h hle he
    · obtain ⟨hexact, -, -, hlim⟩ := processLimitUpdate_exact h hle hstep
      exact ih hexact (fun f hf => hlim ▸ exists_find?_set (hl f (List.mem_cons_of_mem e hf))) herr

structure Tracks (t : LimitTables) (db : Db) : Prop where
  exact : db.TotalsExact
  inForce : db.limits = t.inForce
  asked : ∀ a, t.asked.find? a = (db.pendingLimits.find? a).or (db.limits.find? a)

lemma Tracks.start : Tracks {} initializeDatabase where
  exact := ⟨rfl, rfl, rfl, ⟨Nat.zero_le _, Nat.zero_le _, Nat.zero_le _⟩, fun a l h => by cases h⟩
  inForce := rfl
  asked := fun _ => rfl

lemma Tracks.initializeAccount (h : Tracks t db) (hs : db.initializeAccount a = .ok db') :
    Tracks { inForce := t.inForce.set a {}, asked := t.asked.set a {} } db' := by
  have hexact := (initializeAccount_kept hs).exact h.exact
  obtain ⟨limits, hl, hs⟩ := bind_ok hs
  obtain ⟨usage, -, hs⟩ := bind_ok hs
  obtain ⟨perDay, -, hs⟩ := bind_ok hs
  cases hs
  obtain ⟨hnone, rfl⟩ := createRow_ok hl
  have hpending : db.pendingLimits.find? a = none := by
    cases hp : db.pendingLimits.find? a with
    | none => rfl
    | some p =>
      obtain ⟨l, hl⟩ := h.exact.covered a p hp
      rw [hnone] at hl
      cases hl
  refine ⟨hexact, by rw [← h.inForce], fun b => ?_⟩
  rw [find?_set, find?_set, h.asked]
  split_ifs with hb
  · rw [← hb, hpending]
    rfl
  · rfl

lemma Tracks.setResourceLimits {decreased : Bool} (h : Tracks t db)
    (hs : db.setResourceLimits a l = .ok (decreased, db')) : Tracks { t with asked := t.asked.set a l } db' := by
  iterate 3 obtain ⟨-, hs⟩ := eosAssert_ok hs
  have hexact := (setAccountLimits_kept hs).exact h.exact
  obtain ⟨limits, -, hs⟩ := bind_ok hs
  cases hs
  refine ⟨hexact, h.inForce, fun b => ?_⟩
  rw [find?_set, find?_set, h.asked]
  split_ifs with hb
  · rfl
  · rfl

lemma Tracks.process (h : Tracks t db) (hs : db.processAccountLimitUpdates = .ok db') :
    db'.pendingLimits = empty ∧ db'.limits = t.asked := by
  obtain ⟨hdone, hlim⟩ := processLimitUpdates_drains h.exact rfl hs
  refine ⟨ext_find? fun a => ?_, ext_find? fun a => ?_⟩
  · rw [find?, hdone]
    rfl
  · rw [hlim, find?_applyLimits _ db.pendingLimits.ascending, h.asked]
    rfl

lemma LimitRun.tracks (h : LimitRun t db) : Tracks t db := by
  induction h with
  | start => exact .start
  | initializeAccount a _ hs ih => exact ih.initializeAccount hs
  | setResourceLimits a l _ hs ih => exact ih.setResourceLimits hs
  | processAccountLimitUpdates _ hs ih =>
    obtain ⟨hpending, hlim⟩ := ih.process hs
    refine ⟨(processLimitUpdates_exact ih.exact ih.exact.pending_covered hs).1, hlim, fun a => ?_⟩
    rw [hpending, hlim]
    rfl

theorem limit_updates_apply_last_values (h : LimitRun t db) :
    (db.state.totalRamBytes = total ramBytes db.limits ∧
      db.state.totalCpuWeight = total cpuWeight db.limits ∧
      db.state.totalNetWeight = total netWeight db.limits) ∧
    db.limits = t.inForce ∧ (∀ a, db.getAccountLimits a = getRow t.asked a) ∧
    ((∃ db', db.processAccountLimitUpdates = .ok db') ↔ LimitsFit db.limits db.pendingLimits.entries) ∧
    (∀ db', db.processAccountLimitUpdates = .ok db' →
      db'.pendingLimits = empty ∧ db'.limits = t.asked) ∧
    ∀ thrown, db.processAccountLimitUpdates = .error thrown →
      ∃ which ∈ ["ram_bytes", "cpu_weight", "net_weight"], thrown = overflowThrown which := by
  have ht := h.tracks
  refine ⟨⟨ht.exact.ram, ht.exact.cpu, ht.exact.net⟩, ht.inForce, ?_, ?_, fun db' => ht.process, ?_⟩
  · intro a
    rw [getAccountLimits, getRow, getRow, ht.asked]
    cases db.pendingLimits.find? a <;> rfl
  · exact processLimitUpdates_iff ht.exact ht.exact.pending_covered
  · exact fun thrown => processLimitUpdates_error ht.exact ht.exact.pending_covered

theorem asked_limits_put_in_force : ∃ t db db', LimitRun t db ∧ db.processAccountLimitUpdates = .ok db' ∧
    t.asked.find? 1 = some ⟨10, -1, 5⟩ ∧ db'.limits = t.asked := by
  have hok : (initializeDatabase.initializeAccount 1 >>= fun db => db.setResourceLimits 1 ⟨10, -1, 5⟩ >>= fun r =>
      r.2.processAccountLimitUpdates).map (fun db => db.limits.size) = .ok 1 := by decide +kernel
  obtain ⟨db', hrun, -⟩ := exists_of_map_ok hok
  obtain ⟨first, hfirst, hrun⟩ := bind_ok hrun
  obtain ⟨⟨decreased, db⟩, hset, hprocess⟩ := bind_ok hrun
  have hr := LimitRun.setResourceLimits 1 ⟨10, -1, 5⟩ (.initializeAccount 1 .start hfirst) hset
  obtain ⟨-, -, -, -, hdone, -⟩ := limit_updates_apply_last_values hr
  exact ⟨_, db, db', hr, hprocess, find?_set_self _ _ _, (hdone db' hprocess).2⟩

theorem limit_update_overflows : ∃ t db, LimitRun t db ∧
    db.processAccountLimitUpdates = .error (overflowThrown "ram_bytes") := by
  have hok : (initializeDatabase.initializeAccount 1 >>= fun db => db.initializeAccount 2 >>= fun db =>
      db.initializeAccount 3 >>= fun db => db.setResourceLimits 1 ⟨2 ^ 63 - 1, -1, -1⟩ >>= fun r =>
      r.2.setResourceLimits 2 ⟨2 ^ 63 - 1, -1, -1⟩ >>= fun r => r.2.setResourceLimits 3 ⟨2 ^ 63 - 1, -1, -1⟩).map
      (fun r => r.2.processAccountLimitUpdates) = .ok (.error (overflowThrown "ram_bytes")) := by decide +kernel
  obtain ⟨⟨decreased, db⟩, hrun, hprocess⟩ := exists_of_map_ok hok
  simp only [result_bind] at hrun
  obtain ⟨db1, h1, db2, h2, db3, h3, ⟨_, db4⟩, h4, ⟨_, db5⟩, h5, h6⟩ := hrun
  have hr3 := LimitRun.initializeAccount 3 (.initializeAccount 2 (.initializeAccount 1 .start h1) h2) h3
  exact ⟨_, db, .setResourceLimits 3 _ (.setResourceLimits 2 _ (.setResourceLimits 1 _ hr3 h4) h5) h6, hprocess⟩

end Db

end XosChain.ResourceLimits
