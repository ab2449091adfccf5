import XosChain.Account.Links
import XosChain.History.AccountRows
import XosChain.History.Mirror

namespace XosChain

open Lib Config List Db FlatMap

namespace Db

variable {db db' : Db} {ctx : Context} {rt : Runtime} {act : Action}

section

variable (h : db.applyNative rt ctx act = .ok db')

include h

lemma applyNative_newaccount (hn : act.name = newaccountName) :
    ∃ create, act.asNewaccount = .ok create ∧ db.applyEosioNewaccount ctx act.authorization create = .ok db' := by
  rw [applyNative, if_pos hn] at h
  exact bind_ok h

lemma applyNative_updateauth (hn : act.name = updateauthName) :
    ∃ update, act.asUpdateauth = .ok update ∧ db.applyEosioUpdateauth ctx act.authorization update = .ok db' := by
  rw [applyNative, hn] at h
  exact bind_ok h

lemma applyNative_deleteauth (hn : act.name = deleteauthName) :
    ∃ remove, act.asDeleteauth = .ok remove ∧ db.applyEosioDeleteauth act.authorization remove = .ok db' := by
  rw [applyNative, hn] at h
  exact bind_ok h

lemma applyNative_accounts {a : AccountName} (ha : db.accounts.contains a = true) : db'.accounts.contains a = true := by
  rcases (applyNative_frame h).accounts with he | ⟨name, row, he⟩
  · exact he ▸ ha
  · exact he ▸ (contains_set_new _ a).mpr (.inr ha)

end

end Db

namespace History

structure Chain where
  db : Db
  globalActionSequence : ℕ := 0

def nativeHandler (rt : Runtime) (ctx : Context) (db : Db) (trace : BaseActionTrace) : Result Db :=
  if trace.receiver = systemAccountName ∧ trace.act.account = systemAccountName then
    db.applyNative rt ctx trace.act
  else pure db

def ExecOne (rt : Runtime) (s : Chain) (trace : BaseActionTrace) (s' : Chain) : Prop :=
  trace.globalSequence = s.globalActionSequence + 1 ∧ s'.globalActionSequence = trace.globalSequence ∧
    ∃ ctx db, nativeHandler rt ctx s.db trace = .ok db ∧
      ∀ a, db.accounts.contains a = true → s'.db.accounts.contains a = true

inductive Exec (rt : Runtime) : Chain → List BaseActionTrace → Chain → Prop
  | nil (s : Chain) : Exec rt s [] s
  | cons {s s1 s' : Chain} {trace : BaseActionTrace} {rest : List BaseActionTrace} (h : ExecOne rt s trace s1)
      (hrest : Exec rt s1 rest s') : Exec rt s (trace :: rest) s'

def Authorities.after (m : Authorities) (trace : BaseActionTrace) : Authorities :=
  if trace.receiver = systemAccountName ∧ trace.act.account = systemAccountName then m.setBy trace.act
  else m

inductive Delivery where
  | applied (actionTraces : List ActionTrace)
  | rolledBack (actionTraces : List ActionTrace)
  | hardFailed (actionTraces : List ActionTrace)

structure State where
  chain : Chain
  authorities : Authorities := empty
  tables : Tables := {}

inductive Delivered (rt : Runtime) (P : Plugin) (s : State) : Delivery → State → Prop
  | applied {actionTraces : List ActionTrace} {chain : Chain} (h : Exec rt s.chain (executedIn actionTraces) chain) :
      Delivered rt P s (.applied actionTraces)
        { chain
          authorities := (executedIn actionTraces).foldl Authorities.after s.authorities
          tables := P.applied actionTraces s.tables }
  | rolledBack (actionTraces : List ActionTrace) : Delivered rt P s (.rolledBack actionTraces) s
  | hardFailed (actionTraces : List ActionTrace) (db : Db)
      (h : ∀ a, s.chain.db.accounts.contains a = true → db.accounts.contains a = true) :
      Delivered rt P s (.hardFailed actionTraces)
        { s with
          chain := { s.chain with db := db }
          tables := P.applied actionTraces s.tables }

inductive Event where
  | startBlock
  | abortBlock
  | delivered (d : Delivery)

inductive Run (rt : Runtime) (P : Plugin) : State × List State → List Event → State × List State → Prop
  | nil (s : State × List State) : Run rt P s [] s
  | startBlock {s : State} {saved : List State} {events : List Event} {r : State × List State}
      (h : Run rt P (s, s :: saved) events r) : Run rt P (s, saved) (.startBlock :: events) r
  | abortBlock {s before : State} {saved : List State} {events : List Event} {r : State × List State}
      (h : Run rt P (before, saved) events r) : Run rt P (s, before :: saved) (.abortBlock :: events) r
  | delivered {s s' : State} {saved : List State} {d : Delivery} {events : List Event} {r : State × List State}
      (hd : Delivered rt P s d s') (h : Run rt P (s', saved) events r) :
      Run rt P (s, saved) (.delivered d :: events) r

def LooksNative (trace : BaseActionTrace) : Prop :=
  trace.receiver = systemAccountName ∧ SetsPermissions trace.act ∧ trace.act.account ≠ systemAccountName

instance (trace : BaseActionTrace) : Decidable (LooksNative trace) := inferInstanceAs (Decidable (_ ∧ _))

def Plugin.CleanTrace (P : Plugin) (trace : BaseActionTrace) : Prop :=
  ¬ LooksNative trace ∧ SetsDistinctActors trace.act ∧ (P.filter trace = true → ∀ a ∈ P.accountSet trace, P.Recordable a)

instance (P : Plugin) (trace : BaseActionTrace) : Decidable (P.CleanTrace trace) := inferInstanceAs (Decidable (_ ∧ _))

def Delivery.Clean (P : Plugin) : Delivery → Prop
  | .applied actionTraces => ∀ trace ∈ executedIn actionTraces, P.CleanTrace trace
  | .rolledBack _ => True
  | .hardFailed actionTraces => ∀ trace ∈ executedIn actionTraces,
      P.filter trace = false ∧ ¬ (trace.receiver = systemAccountName ∧ SetsPermissions trace.act)

def Event.Clean (P : Plugin) : Event → Prop
  | .delivered d => d.Clean P
  | _ => True

def Event.recordings (P : Plugin) (a : AccountName) : Event → ℕ
  | .delivered (.applied actionTraces) => (executedIn actionTraces).countP (P.records a)
  | _ => 0

def Authorities.OwnedIn (m : Authorities) (db : Db) : Prop :=
  ∀ k auth, m.find? k = some auth → db.accounts.contains (ofLex k).1 = true

structure State.Sound (s : State) (bound : AccountName → ℕ) : Prop where
  mirrors : Mirrors s.authorities s.tables
  numbered : ∀ n ∈ s.tables.actionSequenceNums, n ≤ s.chain.globalActionSequence
  sequenced : ∃ count, Sequenced s.tables.accountHistories count ∧ ∀ a, count a ≤ bound a
  owned : s.authorities.OwnedIn s.chain.db

section

variable {rt : Runtime} {P : Plugin} {s s' : State} {c c' : Chain} {m : Authorities} {t : Tables}
  {trace : BaseActionTrace}

variable {db db' : Db} {act : Action} {ctx : Context}

lemma Authorities.OwnedIn.mono (h : m.OwnedIn db)
    (hdb : ∀ a, db.accounts.contains a = true → db'.accounts.contains a = true) : m.OwnedIn db' :=
  fun k auth hk => hdb _ (h k auth hk)

lemma Authorities.OwnedIn.set (h : m.OwnedIn db) {a : AccountName} (ha : db.accounts.contains a = true)
    (p : PermissionName) (auth : Authority) : Authorities.OwnedIn (m.set (toLex (a, p)) auth) db :=
  forall_set h ha

lemma Authorities.OwnedIn.erase (h : m.OwnedIn db) (k : AuthorityKey) : Authorities.OwnedIn (m.erase k) db :=
  forall_erase h

lemma Authorities.OwnedIn.fresh (h : m.OwnedIn db) {a : AccountName} (ha : db.accounts.contains a = false)
    (p : PermissionName) : m.find? (toLex (a, p)) = none := by
  cases hm : m.find? (toLex (a, p)) with
  | none => rfl
  | some auth =>
    have ho := h _ auth hm
    rw [show (ofLex (toLex (a, p))).1 = a from rfl, ha] at ho
    cases ho

lemma SetsDistinctActors.newaccount (h : SetsDistinctActors act) {create : NewAccount}
    (hd : act.asNewaccount = .ok create) : DistinctActors create.owner ∧ DistinctActors create.active := by
  rw [Action.asNewaccount] at hd
  split at hd
  · next d hdata =>
    cases hd
    rwa [SetsDistinctActors, hdata] at h
  · cases hd

lemma SetsDistinctActors.updateauth (h : SetsDistinctActors act) {update : UpdateAuth}
    (hd : act.asUpdateauth = .ok update) : DistinctActors update.auth := by
  rw [Action.asUpdateauth] at hd
  split at hd
  · next d hdata =>
    cases hd
    rwa [SetsDistinctActors, hdata] at h
  · cases hd

lemma recorded_of_native (ha : act.account = systemAccountName) (hs : SetsPermissions act)
    (hd : SetsDistinctActors act) (hm : Mirrors m t) (ho : m.OwnedIn db) (h : db.applyNative rt ctx act = .ok db') :
    Recorded m act t ∧ (m.setBy act).OwnedIn db' := by
  have hkeep := ho.mono fun a => applyNative_accounts h
  obtain hn | hn | hn := hs
  · obtain ⟨create, hc, hx⟩ := applyNative_newaccount h hn
    obtain ⟨-, hfresh, -, r, rfl, -⟩ := applyEosioNewaccount_ok hx
    have hname : (db.accounts.set create.name {}).contains create.name = true :=
      (contains_set_new {} create.name).mpr (.inl rfl)
    obtain ⟨howner, hactive⟩ := hd.newaccount hc
    refine ⟨recorded_newaccount hm ha hn hc howner hactive (ho.fresh hfresh), ?_⟩
    rw [Authorities.setBy, if_pos hn, hc]
    exact (hkeep.set hname _ _).set hname _ _
  · obtain ⟨update, hc, hx⟩ := applyNative_updateauth h hn
    obtain ⟨-, -, hexists, -⟩ := applyEosioUpdateauth_ok hx
    refine ⟨recorded_updateauth hm ha hn hc (hd.updateauth hc), ?_⟩
    rw [Authorities.setBy, if_neg (by rw [hn]; decide), if_pos hn, hc]
    exact hkeep.set (applyNative_accounts h hexists) _ _
  · obtain ⟨del, hc, hx⟩ := applyNative_deleteauth h hn
    refine ⟨recorded_deleteauth hm ha hn hc, ?_⟩
    rw [Authorities.setBy, if_neg (by rw [hn]; decide), if_neg (by rw [hn]; decide), if_pos hn, hc]
    exact hkeep.erase _

lemma systemAction_recorded (hl : ¬ LooksNative trace) (hd : SetsDistinctActors trace.act) (hm : Mirrors m t)
    (ho : m.OwnedIn db) (h : nativeHandler rt ctx db trace = .ok db') :
    ∃ t', (if trace.receiver = systemAccountName then onSystemAction trace.act else pure ()) t = .ok () t' ∧
      Mirrors (m.after trace) t' ∧ t.SameRecords t' ∧ (m.after trace).OwnedIn db' := by
  rw [nativeHandler] at h
  rw [Authorities.after]
  by_cases hr : trace.receiver = systemAccountName
  · rw [if_pos hr]
    by_cases hs : SetsPermissions trace.act
    · have ha : trace.act.account = systemAccountName := by
        by_contra ha
        exact hl ⟨hr, hs, ha⟩
      rw [if_pos ⟨hr, ha⟩] at h ⊢
      obtain ⟨⟨t', hrun, hm', hnums⟩, ho'⟩ := recorded_of_native ha hs hd hm ho h
      exact ⟨t', hrun, hm', hnums, ho'⟩
    · refine ⟨t, onSystemAction_of_not hs t, ?_⟩
      rw [Authorities.setBy_of_not hs, ite_self]
      refine ⟨hm, ⟨rfl, rfl⟩, ho.mono ?_⟩
      intro a ha
      split_ifs at h
      · exact applyNative_accounts h ha
      · cases h
        exact ha
  · rw [if_neg hr, if_neg fun hb => hr hb.1]
    rw [if_neg fun hb => hr hb.1] at h
    cases h
    exact ⟨t, rfl, hm, ⟨rfl, rfl⟩, ho⟩

variable {bound : AccountName → ℕ}

lemma State.Sound.execOne (h : State.Sound ⟨c, m, t⟩ bound) (hx : ExecOne rt c trace c') (hclean : P.CleanTrace trace)
    (hb : ∀ a, P.records a trace = true → bound a < 2 ^ 31) :
    ∃ t', P.onBaseTrace trace t = .ok () t' ∧
      State.Sound ⟨c', m.after trace, t'⟩ fun a => bound a + if P.records a trace then 1 else 0 := by
  obtain ⟨hseq, hnext, ctx, db, hnative, hcode⟩ := hx
  obtain ⟨hl, hd, hrecordable⟩ := hclean
  obtain ⟨count, hcount, hle⟩ := h.sequenced
  have hfresh : ∀ n ∈ t.actionSequenceNums, n ≠ trace.globalSequence := by
    intro n hn
    have hle : n ≤ c.globalActionSequence := h.numbered n hn
    omega
  have hroom : P.filter trace = true → ∀ a ∈ P.accountSet trace, P.Recordable a ∧ count a < 2 ^ 31 := by
    intro hf a ha
    exact ⟨hrecordable hf a ha, (hle a).trans_lt (hb a (by simp [Plugin.records, hf, ha]))⟩
  obtain ⟨nums, rows, hrecord, hnums, hrows⟩ := hcount.recordAction_eq hfresh hroom
  have hm : Mirrors m { t with actionSequenceNums := nums, accountHistories := rows } :=
    ⟨h.mirrors.keys, h.mirrors.controls⟩
  obtain ⟨t', hrun, hm', ⟨hsame, hhistories⟩, ho⟩ := systemAction_recorded hl hd hm h.owned hnative
  have hcounted : Sequenced t'.accountHistories fun a => count a + if P.records a trace then 1 else 0 := by
    rw [hhistories]
    exact hrows
  refine ⟨t', ?_, hm', ?_, ⟨_, hcounted, ?_⟩, ho.mono hcode⟩
  · rw [Plugin.onBaseTrace, bind_of_ok hrecord]
    exact hrun
  · intro n hn
    rw [hsame] at hn
    change n ≤ c'.globalActionSequence
    obtain hold | rfl := hnums n hn
    · have hle : n ≤ c.globalActionSequence := h.numbered n hold
      omega
    · exact hnext.ge
  · intro a
    exact Nat.add_le_add_right (hle a) _

variable {traces : List BaseActionTrace}

lemma State.Sound.exec (hx : Exec rt c traces c') (h : State.Sound ⟨c, m, t⟩ bound)
    (hclean : ∀ trace ∈ traces, P.CleanTrace trace) (hb : ∀ a, bound a + traces.countP (P.records a) ≤ 2 ^ 31) :
    ∃ t', (forM traces P.onBaseTrace : Handler Unit) t = .ok () t' ∧
      State.Sound ⟨c', traces.foldl Authorities.after m, t'⟩ fun a => bound a + traces.countP (P.records a) := by
  induction hx generalizing m t bound with
  | nil s => exact ⟨t, rfl, h⟩
  | cons hone _ ih =>
    simp only [countP_cons] at hb ⊢
    have hroom := fun a (ha : P.records a _ = true) => (by have := hb a; rw [if_pos ha] at this; omega : bound a < 2 ^ 31)
    obtain ⟨t1, hrun, h1⟩ := h.execOne hone (hclean _ mem_cons_self) hroom
    obtain ⟨t', hrest, h'⟩ := ih h1 (fun trace ht => hclean trace (mem_cons_of_mem _ ht)) fun a => by have := hb a; omega
    refine ⟨t', ?_, ?_⟩
    · rw [forM_cons, bind_of_ok hrun]
      exact hrest
    · simp only [← add_assoc, add_right_comm _ (countP _ _)]
      exact h'

lemma forM_onBaseTrace_skipped
    (h : ∀ trace ∈ traces,
      P.filter trace = false ∧ ¬ (trace.receiver = systemAccountName ∧ SetsPermissions trace.act)) (t : Tables) :
    (forM traces P.onBaseTrace : Handler Unit) t = .ok () t := by
  induction traces with
  | nil => rfl
  | cons trace traces ih =>
    obtain ⟨hf, hs⟩ := h trace mem_cons_self
    have hrecord : P.recordAction trace t = .ok () t := by
      rw [Plugin.recordAction, hf]
      rfl
    have hone : P.onBaseTrace trace t = .ok () t := by
      rw [Plugin.onBaseTrace, bind_of_ok hrecord]
      split_ifs with hr
      · exact onSystemAction_of_not (fun hb => hs ⟨hr, hb⟩) t
      · rfl
    rw [forM_cons, bind_of_ok hone]
    exact ih fun trace ht => h trace (mem_cons_of_mem _ ht)

lemma Plugin.applied_eq {actionTraces : List ActionTrace} {t' : Tables}
    (h : (forM (executedIn actionTraces) P.onBaseTrace : Handler Unit) t = .ok () t') :
    P.applied actionTraces t = t' := by
  rw [Plugin.applied, Plugin.onAppliedTransaction, onInlineTraces_eq, h]

lemma State.Sound.mono (h : s.Sound bound) (more : AccountName → ℕ) : s.Sound fun a => bound a + more a := by
  obtain ⟨count, hcount, hle⟩ := h.sequenced
  exact ⟨h.mirrors, h.numbered, ⟨count, hcount, fun a => Nat.le_add_right_of_le (hle a)⟩, h.owned⟩

lemma State.Sound.delivered (h : s.Sound bound) {d : Delivery} (hd : Delivered rt P s d s') (hclean : d.Clean P)
    (hb : ∀ a, bound a + (Event.delivered d).recordings P a ≤ 2 ^ 31) :
    s'.Sound fun a => bound a + (Event.delivered d).recordings P a := by
  cases hd with
  | applied hx =>
    obtain ⟨t', hrun, h'⟩ := State.Sound.exec (P := P) hx h hclean hb
    rw [Plugin.applied_eq hrun]
    exact h'
  | rolledBack => exact h
  | hardFailed actionTraces db hdb =>
    rw [Plugin.applied_eq (forM_onBaseTrace_skipped hclean s.tables)]
    exact ⟨h.mirrors, h.numbered, h.sequenced, h.owned.mono hdb⟩

lemma Run.sound {r r' : State × List State} {events : List Event} (hr : Run rt P r events r')
    (hclean : ∀ e ∈ events, e.Clean P) (hb : ∀ a, bound a + (events.map (·.recordings P a)).sum ≤ 2 ^ 31)
    (hs : ∀ s ∈ r.1 :: r.2, s.Sound bound) : ∃ bound', r'.1.Sound bound' := by
  induction hr generalizing bound with
  | nil s => exact ⟨bound, hs _ mem_cons_self⟩
  | startBlock _ ih =>
    apply ih (fun e he => hclean e (mem_cons_of_mem _ he)) (by simpa [Event.recordings] using hb)
    intro s hmem
    apply hs s
    simpa using hmem
  | abortBlock _ ih =>
    apply ih (fun e he => hclean e (mem_cons_of_mem _ he)) (by simpa [Event.recordings] using hb)
    intro s hmem
    exact hs s (mem_cons_of_mem _ hmem)
  | @delivered _ _ _ d _ _ hd _ ih =>
    simp only [map_cons, sum_cons, ← add_assoc] at hb
    apply ih (fun e he => hclean e (mem_cons_of_mem _ he)) hb
    intro s hmem
    obtain rfl | hmem := mem_cons.mp hmem
    · exact (hs _ mem_cons_self).delivered hd (hclean _ mem_cons_self) fun a => (Nat.le_add_right _ _).trans (hb a)
    · exact (hs s (mem_cons_of_mem _ hmem)).mono _

end

theorem history_mirrors_authorities {rt : Runtime} {P : Plugin} {chain : Chain} {events : List Event} {s : State}
    {saved : List State} (hr : Run rt P ({ chain }, []) events (s, saved)) (hclean : ∀ e ∈ events, e.Clean P)
    (hcount : ∀ a, (events.map (·.recordings P a)).sum ≤ 2 ^ 31) :
    s.tables.publicKeys.Perm (s.authorities.rows keyRows) ∧
      s.tables.accountControls.Perm (s.authorities.rows controlRows) := by
  have hstart : State.Sound { chain } fun _ => 0 := by
    refine ⟨⟨derived_empty _, derived_empty _⟩, ?_, ⟨fun _ => 0, ?_, fun a => le_rfl⟩, ?_⟩
    · intro n hn
      cases hn
    · intro a z
      simp only [not_mem_nil, false_and, exists_false, false_iff]
      omega
    · intro k auth hk
      cases hk
  have hbound : ∀ a, 0 + (events.map (·.recordings P a)).sum ≤ 2 ^ 31 := by
    simpa only [zero_add] using hcount
  obtain ⟨bound, hs⟩ := hr.sound hclean hbound (by simpa using hstart)
  exact ⟨hs.mirrors.keys, hs.mirrors.controls⟩

def updateActive (account : AccountName) (auth : Authority) : Action :=
  { account
    name := updateauthName
    authorization := [⟨systemAccountName, ownerName⟩]
    data := .updateauth ⟨systemAccountName, activeName, ownerName, auth⟩ }

def updateTrace (globalSequence : ℕ) (auth : Authority) : ActionTrace :=
  .mk ⟨systemAccountName, globalSequence, updateActive systemAccountName auth⟩ []

lemma exec_update {start : Db} (auth : Authority) {n : ℕ} {db : Db}
    (h : start.applyNative bareRuntime {} (updateActive systemAccountName auth) = .ok db) :
    Exec bareRuntime ⟨start, n⟩ (executedIn [updateTrace (n + 1) auth]) ⟨db, n + 1⟩ :=
  .cons ⟨rfl, rfl, {}, db, h, fun _ ha => ha⟩ (.nil _)

lemma execOne_foo (start : Db) (n : ℕ) (receiver : AccountName) :
    ExecOne bareRuntime ⟨start, n⟩ ⟨receiver, n + 1, updateActive fooName {}⟩ ⟨start, n + 1⟩ := by
  refine ⟨rfl, rfl, {}, start, ?_, fun _ ha => ha⟩
  rw [nativeHandler, if_neg fun h => (by decide : fooName ≠ systemAccountName) h.2]
  rfl

def twoOfNull : Authority :=
  { threshold := 1
    accounts := [⟨⟨nullAccountName, activeName⟩, 1⟩, ⟨⟨nullAccountName, ownerName⟩, 1⟩,
      ⟨⟨producersAccountName, activeName⟩, 1⟩] }

def createTrace : ActionTrace := .mk ⟨systemAccountName, 1, createFoo⟩ []

def createdAndUndone : List Event :=
  [.startBlock, .delivered (.applied [createTrace]), .delivered (.rolledBack [updateTrace 2 twoOfNull]), .startBlock,
    .delivered (.applied [updateTrace 2 (.ofKey 9)]), .abortBlock]

def recordAll : Plugin := { bypassFilter := true }

theorem createdAndUndone_mirrored : ∃ start s saved,
    genesis 7 [] 0 = .ok start ∧ Run bareRuntime recordAll ({ chain := ⟨start, 0⟩ }, []) createdAndUndone (s, saved) ∧
    s.tables.publicKeys = [⟨1, fooName, ownerName⟩] ∧
    s.tables.publicKeys.Perm (s.authorities.rows keyRows) ∧
    s.tables.accountControls.Perm (s.authorities.rows controlRows) := by
  have hok : (genesis 7 [] 0 >>= fun start => start.applyNative bareRuntime {} createFoo >>= fun made =>
      made.applyNative bareRuntime {} (updateActive systemAccountName (.ofKey 9))).map (fun _ => ()) =
      .ok () := by decide +kernel
  obtain ⟨db, hdb, -⟩ := exists_of_map_ok hok
  obtain ⟨start, hg, hdb⟩ := bind_ok hdb
  obtain ⟨made, hmade, hupdate⟩ := bind_ok hdb
  have hx : Exec bareRuntime ⟨start, 0⟩ (executedIn [createTrace]) ⟨made, 1⟩ :=
    .cons ⟨rfl, rfl, {}, made, hmade, fun _ ha => ha⟩ (.nil _)
  have hrun : Run bareRuntime recordAll ({ chain := ⟨start, 0⟩ }, []) createdAndUndone _ :=
    .startBlock (.delivered (.applied hx) (.delivered (.rolledBack _)
      (.startBlock (.delivered (.applied (exec_update _ hupdate)) (.abortBlock (.nil _))))))
  have hclean : ∀ e ∈ createdAndUndone, e.Clean recordAll := by
    simp only [createdAndUndone, forall_mem_cons]
    refine ⟨trivial, ?_, trivial, trivial, ?_, trivial, fun e he => nomatch he⟩
    · change ∀ trace ∈ executedIn [createTrace], _
      decide +kernel
    · change ∀ trace ∈ executedIn [updateTrace 2 (.ofKey 9)], _
      decide +kernel
  have hcount : ∀ a, (createdAndUndone.map (·.recordings recordAll a)).sum ≤ 2 ^ 31 := by
    intro a
    have hcreated := countP_le_length (p := recordAll.records a) (l := executedIn [createTrace])
    have hupdated := countP_le_length (p := recordAll.records a) (l := executedIn [updateTrace 2 (.ofKey 9)])
    change _ ≤ 1 at hcreated hupdated
    simp only [createdAndUndone, Event.recordings, map_cons, map_nil, sum_cons, sum_nil]
    omega
  obtain ⟨hkeys, hcontrols⟩ := history_mirrors_authorities hrun hclean hcount
  refine ⟨start, _, _, hg, hrun, ?_, hkeys, hcontrols⟩
  dsimp only
  decide +kernel

def afterLookAlike : List ActionTrace :=
  [.mk ⟨fooName, 1, updateActive fooName {}⟩ [.mk ⟨systemAccountName, 2, updateActive fooName {}⟩ []],
    updateTrace 3 (.ofKey 9)]

def thirdRecorded : List ActionTrace :=
  [.mk ⟨fooName, 1, updateActive fooName {}⟩ [], .mk ⟨fooName, 2, updateActive fooName {}⟩ [], updateTrace 3 (.ofKey 9)]

def Unmirrored (P : Plugin) (deliveries : List Delivery) : Prop :=
  ∃ start s, genesis 7 [] 0 = .ok start ∧
    Run bareRuntime P ({ chain := ⟨start, 0⟩ }, []) (deliveries.map .delivered) (s, []) ∧
    ¬ (s.tables.publicKeys.Perm (s.authorities.rows keyRows) ∧
      s.tables.accountControls.Perm (s.authorities.rows controlRows))

theorem history_not_mirrored :
    Unmirrored {} [.applied afterLookAlike] ∧ Unmirrored {} [.applied [updateTrace 1 twoOfNull]] ∧
      Unmirrored {} [.hardFailed [updateTrace 1 (.ofKey 9)]] ∧
      Unmirrored recordAll [.hardFailed [.mk ⟨fooName, 1, fooAction⟩ []], .applied [updateTrace 1 (.ofKey 9)]] ∧
      Unmirrored { recordAll with pastEnd := ⟨systemAccountName, 0, 2 ^ 31 - 2⟩ } [.applied thirdRecorded] := by
  have hkey : (genesis 7 [] 0 >>= fun start => start.applyNative bareRuntime {}
      (updateActive systemAccountName (.ofKey 9))).map (fun _ => ()) = .ok () := by decide +kernel
  have htwo : (genesis 7 [] 0 >>= fun start => start.applyNative bareRuntime {}
      (updateActive systemAccountName twoOfNull)).map (fun _ => ()) = .ok () := by decide +kernel
  obtain ⟨db, hdb, -⟩ := exists_of_map_ok hkey
  obtain ⟨start, hg, hupdate⟩ := bind_ok hdb
  obtain ⟨db2, hdb2, -⟩ := exists_of_map_ok htwo
  obtain ⟨start2, hg2, hupdate₂⟩ := bind_ok hdb2
  refine ⟨?_, ?_, ?_, ?_, ?_⟩
  · have hx : Exec bareRuntime ⟨start, 0⟩ (executedIn afterLookAlike) ⟨db, 3⟩ :=
      .cons (execOne_foo start 0 _) (.cons (execOne_foo start 1 _) (exec_update _ hupdate))
    refine ⟨start, _, hg, .delivered (.applied hx) (.nil _), ?_⟩
    dsimp only
    decide +kernel
  · refine ⟨start2, _, hg2, .delivered (.applied (exec_update _ hupdate₂)) (.nil _), ?_⟩
    dsimp only
    decide +kernel
  · refine ⟨start, _, hg, .delivered (.hardFailed _ start fun _ ha => ha) (.nil _), ?_⟩
    dsimp only
    decide +kernel
  · refine ⟨start, _, hg, .delivered (.hardFailed _ start fun _ ha => ha)
      (.delivered (.applied (exec_update _ hupdate)) (.nil _)), ?_⟩
    dsimp only
    decide +kernel
  · have hx : Exec bareRuntime ⟨start, 0⟩ (executedIn thirdRecorded) ⟨db, 3⟩ :=
      .cons (execOne_foo start 0 _) (.cons (execOne_foo start 1 _) (exec_update _ hupdate))
    refine ⟨start, _, hg, .delivered (.applied hx) (.nil _), ?_⟩
    dsimp only
    decide +kernel

end History

end XosChain
