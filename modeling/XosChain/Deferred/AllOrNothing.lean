import XosChain.Deferred.Effects
import XosChain.Deferred.Push

namespace XosChain.Retirement

open Lib Pending Triple FlatMap

section

variable {s : Pending} {g : GeneratedTransaction} {a : Attempt}

def Pending.append (s : Pending) (r : TransactionReceipt) (actions : List ActionReceipt) : Pending :=
  { s with transactions := s.transactions ++ [r], actions := s.actions ++ actions }

def TransactionReceipt.Is (r : TransactionReceipt) (trx : TransactionId) (status : ReceiptStatus) : Prop :=
  r.trx = trx ∧ r.status = status

lemma pushReceipt_spec (trx : TransactionId) (status : ReceiptStatus) (cpuUsageUs netUsage : ℕ) :
    Triple (· = s) (pushReceipt trx status cpuUsageUs netUsage) (fun r t => r.Is trx status ∧ t = s.append r [])
      (fun _ t => t = s) := by
  refine .ofExceptBind ?_ fun _ _ => rfl
  intro _ _
  refine .modifyBind (pure _ ?_)
  rintro _ rfl
  exact ⟨⟨rfl, rfl⟩, by simp [append]⟩

lemma emit_spec (subscribers : Pending → Result Unit) :
    Triple (· = s) (emit subscribers) (fun _ t => t = s) (fun e t => Rethrown e ∧ t = s) := by
  refine .getBind_eq ?_
  cases subscribers s with
  | ok _ => exact .pure _ fun _ h => h
  | error e =>
    by_cases he : Rethrown e
    · simp only [if_pos he]
      exact .throw _ fun _ h => ⟨he, h⟩
    · simp only [if_neg he]
      exact .pure _ fun _ h => h

lemma announce_spec (env : Environment) (trace : Trace) :
    Triple (· = s) (env.announce trace) (fun _ t => t = s) (fun e t => Rethrown e ∧ t = s) := by
  refine (emit_spec _).seq ?_
  rintro _ _ rfl
  exact emit_spec _

lemma resize_append (r : TransactionReceipt) (actions : List ActionReceipt) : s.resize (s.append r actions) = s := by
  simp [resize, append]

lemma resize_self : s.resize s = s := by simp [resize]

lemma acceptExecuted_spec (env : Environment) :
    Triple (· = s) (env.acceptExecuted g a) (fun r t => r.Is g.trxId .executed ∧ t = s.append r a.executed)
      (fun _ t => s.resize t = s) := by
  refine ((pushReceipt_spec _ _ _ _).weaken fun _ t ht => ht ▸ resize_self).seq ?_
  rintro r _ ⟨hr, rfl⟩
  refine .modifyBind ?_
  have hstate : { s.append r [] with actions := (s.append r []).actions ++ a.executed } = s.append r a.executed := by
    simp [append]
  rw [hstate]
  refine ((announce_spec env _).weaken fun _ t ht => ht.2 ▸ resize_append r a.executed).seq ?_
  rintro _ _ rfl
  exact .pure _ fun _ h => ⟨hr, h⟩

lemma acceptOnerror_spec :
    Triple (· = s) (acceptOnerror g a) (fun r t => r.Is g.trxId .softFail ∧ t = s.append r a.executed)
      (fun _ t => s.resize t = s) := by
  refine ((pushReceipt_spec _ _ _ _).weaken fun _ t ht => ht ▸ resize_self).seq ?_
  rintro r _ ⟨hr, rfl⟩
  refine .modifyBind (pure _ ?_)
  rintro _ rfl
  exact ⟨hr, by simp [append]⟩

section

variable {accept : Push TransactionReceipt} {status : ReceiptStatus}

section

variable
  (h : ∀ s', Triple (· = s') accept (fun r t => r.Is g.trxId status ∧ t = s'.append r a.executed) (fun _ t => s'.resize t = s'))

include h

lemma runAttempt_spec :
    Triple (· = s) (runAttempt a accept)
      (fun r t => r.2 = true ∧ a.outcome = .ok () ∧ r.1.Is g.trxId status ∧ t = { s.append r.1 a.executed with db := a.db })
      (fun _ t => t = { s with db := a.db }) := by
  refine .modifyBind (.ofExceptBind ?_ fun _ _ => rfl)
  intro _ ho
  refine ((h _).onThrow fun _ t ht => ht).seq ?_
  rintro r _ ⟨hr, rfl⟩
  exact .pure _ fun t ht => ⟨rfl, ho, hr, ht⟩

lemma inContext_spec :
    Triple (· = s) (inContext a accept)
      (fun o t => match o with
        | .ok r => a.outcome = .ok () ∧ r.Is g.trxId status ∧ t = { s.append r a.executed with db := a.db }
        | .error _ => t = s)
      (fun _ t => t = s) := by
  have hsession : Triple (· = s) (session startUndoSession undo squash (runAttempt a accept))
      (fun r t => a.outcome = .ok () ∧ r.Is g.trxId status ∧ t = { s.append r a.executed with db := a.db })
      (fun _ t => t = s) := by
    refine (runAttempt_spec h).session ?_ ?_ ?_
    · rintro r _ ⟨_, ho, hr, rfl⟩
      exact ⟨ho, hr, rfl⟩
    · rintro r t ⟨hf, _⟩
      cases hf
    · rintro e _ rfl
      rfl
  exact hsession.catching (fun _ _ hr => hr) (fun _ _ _ ht => ht) fun _ _ _ ht => ht

end

end

end

section

variable {r r' : ResourceLimits.Db}

structure Billed (r r' : ResourceLimits.Db) : Prop where
  limits : r'.limits = r.limits
  pendingLimits : r'.pendingLimits = r.pendingLimits
  config : r'.config = r.config
  freeResourceLimitPerDay : r'.freeResourceLimitPerDay = r.freeResourceLimitPerDay
  ramUsage : ∀ b, r'.ramUsage b = r.ramUsage b

lemma Billed.refl (r : ResourceLimits.Db) : Billed r r := ⟨rfl, rfl, rfl, rfl, fun _ => rfl⟩

lemma Billed.trans {r'' : ResourceLimits.Db} (h : Billed r r') (h' : Billed r' r'') : Billed r r'' :=
  ⟨h'.limits.trans h.limits, h'.pendingLimits.trans h.pendingLimits, h'.config.trans h.config,
    h'.freeResourceLimitPerDay.trans h.freeResourceLimitPerDay, fun b => (h'.ramUsage b).trans (h.ramUsage b)⟩

variable {cpu net slot : ℕ} {accounts : ResourceLimits.Accounts} {clock : ℕ → ResourceLimits.Time}

lemma updateUsage_billed {account : AccountName} (h : r.updateUsage cpu net slot account = .ok r') :
    Billed r r' := by
  obtain ⟨usage, n, c, hu, -, -, rfl⟩ := ResourceLimits.Db.updateUsage_ok.mp h
  refine ⟨rfl, rfl, rfl, rfl, fun b => ?_⟩
  by_cases hb : account = b
  · subst hb
    simp [ResourceLimits.Db.ramUsage, hu]
  · simp [ResourceLimits.Db.ramUsage, find?_set_of_ne _ _ hb]

lemma updateAccountUsage_billed {slot : ℕ}
    (h : r.updateAccountUsage accounts slot = .ok r') : Billed r r' :=
  foldlM_invariant (P := Billed r) (fun _ _ _ hr hu => hr.trans (updateUsage_billed hu)) (Billed.refl r) h

lemma withPerDay_billed (r : ResourceLimits.Db) (m : FlatMap AccountName ResourceLimits.UsagePerDayAccumulator) :
    Billed r (r.withPerDay m) := ⟨rfl, rfl, rfl, rfl, fun _ => rfl⟩

lemma billAccounts_only {accounts : List AccountName} {i j : ℕ}
    (h : r.billAccounts cpu net slot accounts clock i = (.ok r', j)) : Billed r r' := by
  refine ResourceLimits.Db.billAccounts_rule (P := Billed r) ?_ (.refl r) h
  exact fun _ d _ _ hb hu => (hb.trans (updateUsage_billed hu)).trans (withPerDay_billed d _)

lemma addTransactionUsage_billed
    {i : ℕ} (h : (r.addTransactionUsage accounts cpu net slot clock i).1 = .ok r') : Billed r r' := by
  obtain ⟨r1, _, hbill, h⟩ := ResourceLimits.timed_bind.mp (Prod.ext h rfl)
  obtain ⟨state, rfl⟩ := ResourceLimits.Db.addPendingUsage_eq (ResourceLimits.timed_lift.mp h).1
  have hb := billAccounts_only hbill
  exact ⟨hb.limits, hb.pendingLimits, hb.config, hb.freeResourceLimitPerDay, hb.ramUsage⟩

lemma billFailure_billed {env : Environment} {a : Attempt} {cpu billed : ℕ} {explicit : Bool}
    (h : env.billFailure a cpu explicit r = .ok (billed, r')) : Billed r r' := by
  obtain ⟨⟨n, r1⟩, hfirst, h⟩ := bind_ok h
  obtain ⟨r2, hadd, h⟩ := bind_ok h
  cases h
  refine Billed.trans ?_ (addTransactionUsage_billed hadd)
  cases explicit with
  | true =>
    cases hfirst
    exact .refl r
  | false =>
    obtain ⟨r2, hu, hfirst⟩ := bind_ok hfirst
    obtain ⟨_, _, hfirst⟩ := bind_ok hfirst
    cases hfirst
    exact updateAccountUsage_billed hu

end

section

variable {env : Environment} {s : Pending} {key : SenderKey} {g : GeneratedTransaction} {a : Attempt} {explicit : Bool}

def Left (s : Pending) (e : Thrown) (t : Pending) : Prop :=
  ∃ db, t = { s with db } ∨ Rethrown e ∧ ∃ r actions, t = { s.append r actions with db }

lemma Left.same (s : Pending) (e : Thrown) : Left s e s := ⟨s.db, .inl rfl⟩

inductive Retired (env : Environment) (key : SenderKey) (g : GeneratedTransaction) (explicit : Bool) (s : Pending) :
    Trace → Pending → Prop
  | expired {r : TransactionReceipt} : g.expiration < env.context.pendingBlockTime → r.Is g.trxId .expired →
    Retired env key g explicit s { receipt := some r } (s.append r [])
  | executed {r : TransactionReceipt} : (env.exec g s.db).outcome = .ok () → r.Is g.trxId .executed →
    Retired env key g explicit s { receipt := some r }
      { s.append r (env.exec g s.db).executed with db := (env.exec g s.db).db }
  | softFail {r : TransactionReceipt} {e : Thrown} : (ofLex key).1 ≠ 0 → failureIsSubjective e = false →
    (env.onerror key g s.db).outcome = .ok () → r.Is g.trxId .softFail →
    Retired env key g explicit s { receipt := some r, failed := some e }
      { s.append r (env.onerror key g s.db).executed with db := (env.onerror key g s.db).db }
  | hardFail {r : TransactionReceipt} {e : Thrown} {failed : Option Thrown} {cpu billed : ℕ}
      {resources : ResourceLimits.Db} :
    isSubjective explicit e = false →
    env.billFailure (env.exec g s.db) cpu explicit s.db.resources = .ok (billed, resources) →
    Billed s.db.resources resources → r.Is g.trxId .hardFail →
    Retired env key g explicit s { receipt := some r, except := some e, failed }
      { s.append r [] with db := { s.db with resources } }

def Subjective (explicit : Bool) (trace : Trace) : Prop :=
  trace.receipt = none ∧ ∃ e, trace.except = some e ∧ isSubjective explicit e = true

def Ended (env : Environment) (key : SenderKey) (g : GeneratedTransaction) (explicit : Bool) (s : Pending)
    (o : Trace × Bool) (t : Pending) : Prop :=
  match o with
  | (trace, true) => Retired env key g explicit s trace t
  | (trace, false) => Subjective explicit trace ∧ t = s

lemma retireFailure_spec (cpu : ℕ) (e : Thrown) (failed : Option Thrown) :
    Triple (· = s) (env.retireFailure g (env.exec g s.db) cpu explicit { except := some e, failed } e)
      (Ended env key g explicit s) (Left s) := by
  rw [Environment.retireFailure]
  split_ifs with he
  · refine ((announce_spec env _).weaken fun e t ht => ht.2 ▸ Left.same s e).seq ?_
    rintro _ _ rfl
    exact .pure _ fun _ ht => ⟨⟨rfl, e, rfl, he⟩, ht⟩
  · refine .getBind_eq (.ofExceptBind ?_ fun e _ => Left.same s e)
    rintro ⟨billed, resources⟩ hbill
    refine .modifyBind ?_
    refine ((pushReceipt_spec _ _ _ _).weaken ?_).seq ?_
    · rintro e _ rfl
      exact ⟨_, .inl rfl⟩
    · rintro r _ ⟨hr, rfl⟩
      refine ((announce_spec env _).weaken ?_).seq ?_
      · rintro e _ ⟨he, rfl⟩
        exact ⟨_, .inr ⟨he, r, [], rfl⟩⟩
      · rintro _ _ rfl
        exact .pure_eq (.hardFail (Bool.not_eq_true _ ▸ he) hbill (billFailure_billed hbill) hr)

lemma handleFailure_spec (e : Thrown) :
    Triple (· = s) (env.handleFailure key g (env.exec g s.db) explicit e) (Ended env key g explicit s) (Left s) := by
  rw [Environment.handleFailure]
  split_ifs with hsend
  · refine .getBind_eq ?_
    refine ((inContext_spec fun s' => acceptOnerror_spec).weaken fun e t ht => ht ▸ Left.same s e).seq ?_
    rintro o t ho
    cases o with
    | error e' =>
      obtain rfl : t = s := ho
      exact retireFailure_spec _ e' (some e)
    | ok r =>
      obtain ⟨hout, hr, rfl⟩ := ho
      refine ((announce_spec env _).weaken ?_).seq ?_
      · rintro e _ ⟨he, rfl⟩
        exact ⟨_, .inr ⟨he, r, _, rfl⟩⟩
      · rintro _ _ rfl
        exact .pure_eq (.softFail hsend.1 hsend.2 hout hr)
  · exact retireFailure_spec _ e none

lemma runScheduled_spec :
    Triple (· = s) (env.runScheduled key g explicit) (Ended env key g explicit s) (Left s) := by
  refine .ofExceptBind ?_ fun e _ => Left.same s e
  intro _ _
  refine .getBind_eq ?_
  refine ((inContext_spec fun s' => acceptExecuted_spec env).weaken fun e t ht => ht ▸ Left.same s e).seq ?_
  rintro o t ho
  cases o with
  | error e =>
    obtain rfl : t = s := ho
    exact handleFailure_spec e
  | ok r =>
    obtain ⟨hout, hr, rfl⟩ := ho
    exact .pure_eq (.executed hout hr)

lemma Retired.frame {trace : Trace} {t : Pending} (h : Retired env key g explicit s trace t)
    (inTrxRequiringChecks : Bool) :
    Retired env key g explicit { s with inTrxRequiringChecks } trace { t with inTrxRequiringChecks } := by
  cases h with
  | expired he hr => exact .expired he hr
  | executed ho hr => exact .executed ho hr
  | softFail hs he ho hr => exact .softFail hs he ho hr
  | hardFail he hb hbilled hr => exact .hardFail he hb hbilled hr

lemma Retired.squashed {trace : Trace} {t : Pending} {removed : Db}
    (h : Retired env key g explicit { s.startUndoSession with db := removed } trace t) :
    Retired env key g explicit { s with db := removed } trace t.squash := by
  cases h with
  | expired he hr => exact .expired he hr
  | executed ho hr => exact .executed ho hr
  | softFail hs he ho hr => exact .softFail hs he ho hr
  | hardFail he hb hbilled hr => exact .hardFail he hb hbilled hr

def Removed (env : Environment) (key : SenderKey) (g : GeneratedTransaction) (db removed : Db) : Prop :=
  Charged { db with generated := db.generated.erase key } removed g.payer (-Db.generatedSize env.packing g)

lemma retireScheduled_spec (billed : ℕ) :
    Triple (· = s) (env.retireScheduled key g billed explicit)
      (fun o t => ∃ removed, Removed env key g s.db removed ∧ Ended env key g explicit { s with db := removed } o t)
      (Left s) := by
  refine getBind_eq (ofExceptBind ?_ fun e _ => Left.same s e)
  intro removed hremoved
  have hcharged : Removed env key g s.db removed := Db.removeScheduledTransaction_ok hremoved
  refine modifyBind (ofExceptBind ?_ fun e _ => ⟨removed, .inl rfl⟩)
  intro _ _
  split_ifs with hexpired
  · refine ((pushReceipt_spec _ _ _ _).weaken ?_).seq ?_
    · rintro e _ rfl
      exact ⟨removed, .inl rfl⟩
    · rintro r _ ⟨hr, rfl⟩
      refine ((announce_spec env _).weaken ?_).seq ?_
      · rintro e _ ⟨he, rfl⟩
        exact ⟨removed, .inr ⟨he, r, [], rfl⟩⟩
      · rintro _ _ rfl
        exact .pure_eq ⟨removed, hcharged, .expired hexpired hr⟩
  · refine getBind_eq ?_
    refine (modifyBind runScheduled_spec).onExit ?_ ?_
    · rintro ⟨trace, kept⟩ t ht
      refine ⟨removed, hcharged, ?_⟩
      cases kept with
      | true =>
        have hretired : Retired env key g explicit _ trace t := ht
        exact hretired.frame s.inTrxRequiringChecks
      | false =>
        obtain ⟨hsubj, rfl⟩ := ht
        exact ⟨hsubj, rfl⟩
    · rintro e _ ⟨db, rfl | ⟨he, r, actions, rfl⟩⟩
      · exact ⟨db, .inl rfl⟩
      · exact ⟨db, .inr ⟨he, r, actions, rfl⟩⟩

lemma pushScheduledTransaction_spec (trxId : TransactionId) (billed : ℕ) :
    Triple (· = s) (env.pushScheduledTransaction trxId billed explicit)
      (fun trace t => ∃ key g removed, s.db.findGenerated trxId = some (key, g) ∧ Removed env key g s.db removed ∧
        (Retired env key g explicit { s with db := removed } trace t ∨
          Subjective explicit trace ∧ (env.skipDbSessions s = false → t = s)))
      (fun e t => env.skipDbSessions s = false → t = s ∨ Rethrown e ∧ ∃ r actions, t = s.append r actions) := by
  refine .getBind_eq ?_
  cases hfound : s.db.findGenerated trxId with
  | none =>
    refine .throw_eq ?_
    rintro _
    exact .inl rfl
  | some found =>
    obtain ⟨key, g⟩ := found
    dsimp only
    rw [maybeSession]
    cases hskip : env.skipDbSessions s with
    | true =>
      refine .map ((retireScheduled_spec billed).weaken fun _ _ _ h => nomatch h) ?_
      rintro ⟨trace, kept⟩ t ⟨removed, hremoved, hended⟩
      refine ⟨key, g, removed, rfl, hremoved, ?_⟩
      cases kept with
      | true => exact .inl hended
      | false => exact .inr ⟨hended.1, fun h => nomatch h⟩
    | false =>
      refine (retireScheduled_spec billed).session ?_ ?_ ?_
      · rintro trace t ⟨removed, hremoved, hretired⟩
        exact ⟨key, g, removed, rfl, hremoved, .inl (hretired.squashed)⟩
      · rintro trace _ ⟨removed, hremoved, hsubj, rfl⟩
        exact ⟨key, g, removed, rfl, hremoved, .inr ⟨hsubj, fun _ => rfl⟩⟩
      · rintro e t ⟨db, rfl | ⟨he, r, actions, rfl⟩⟩ _
        · exact .inl rfl
        · exact .inr ⟨he, r, actions, rfl⟩

theorem push_scheduled_outcome (env : Environment) (s : Pending) (trxId : TransactionId) (billed : ℕ) (explicit : Bool) :
    (∀ trace t, env.pushScheduledTransaction trxId billed explicit s = .ok trace t →
      ∃ key g removed, s.db.findGenerated trxId = some (key, g) ∧ Removed env key g s.db removed ∧
        (Retired env key g explicit { s with db := removed } trace t ∨
          Subjective explicit trace ∧ (env.skipDbSessions s = false → t = s))) ∧
    ∀ e t, env.pushScheduledTransaction trxId billed explicit s = .error e t → env.skipDbSessions s = false →
      t = s ∨ Rethrown e ∧ ∃ r actions, t = s.append r actions :=
  ⟨fun _ _ h => (pushScheduledTransaction_spec trxId billed).ok rfl h,
    fun _ _ h => (pushScheduledTransaction_spec trxId billed).error rfl h⟩

end

section

def failingTrx : GeneratedTransaction :=
  { trxId := 7, payer := 1, delayUntil := 0, expiration := 100, published := 0, packedTrx := {} }

def failing (extensions : List (ℕ × Bytes)) : Environment where
  packing := ⟨fun _ => 7, fun _ => 0⟩
  context := { pendingBlockTime := 10 }
  control :=
    { maxTransactionNetUsage := 524288
      maxTransactionCpuUsage := 150000
      minTransactionCpuUsage := 100
      netUsageLeeway := 500
      isProducingBlock := true
      resourceGreylist := []
      skipTrxChecks := false
      net_lt := ResourceLimits.defaultNet_lt
      cpu_lt := ResourceLimits.defaultCpu_lt }
  slot := 1
  clock := fun _ => ⟨5, ResourceLimits.Time.five_fits⟩
  considerSkipping := false
  transactionExtensions := fun _ => extensions
  exec := fun _ db =>
    { db
      outcome := .error ⟨.eosioAssertMessageException, "assertion failure"⟩
      billToAccounts := ⟨[1], ResourceLimits.one_ascending⟩
      initialObjectiveDurationLimit := 150000
      cpuTimeToBillUs := 100 }
  onerror := fun _ _ db => { db, outcome := .ok () }
  acceptedTransaction := fun _ => .ok ()
  appliedTransaction := fun _ _ => .ok ()

def scheduled : Pending where
  db :=
    { generated := empty.set (senderKey 0 7) failingTrx
      resources :=
        { ResourceLimits.initializeDatabase with
          limits := empty.set 1 {}
          usage := empty.set 1 { ramUsage := 1000 }
          usagePerDay := empty.set 1 {} } }

def cpuUsed (s : Pending) : Option ℕ := (s.db.resources.usage.find? 1).map (·.cpuUsage.valueEx)

def observed : EStateM.Result Thrown Pending Trace → (Option TransactionReceipt × Option ℕ) ⊕ Thrown × List TransactionReceipt × Bool
  | .ok trace t => .inl (trace.receipt, cpuUsed t)
  | .error e t => .inr (e, t.transactions, t.db.generated.contains (senderKey 0 7))

theorem failing_neither_all_nor_nothing :
    cpuUsed scheduled = some 0 ∧
    observed ((failing []).pushScheduledTransaction 7 0 false scheduled) = .inl (some ⟨7, .hardFail, 100, 0⟩, some 579) ∧
    observed ((failing [(0, [])]).pushScheduledTransaction 7 0 false scheduled) =
      .inr (⟨.unsupportedFeature, "we don't support any extensions yet"⟩, [], true) ∧
    isSubjective false ⟨.unsupportedFeature, "we don't support any extensions yet"⟩ = false := by
  decide +kernel

end

end XosChain.Retirement
