import XosChain.Actions.Exec

namespace XosChain.Actions

open Lib FlatMap List ApplyContext AccountSequence

section

inductive Field where
  | recv
  | auth
  deriving DecidableEq

inductive Counter where
  | globalAction
  | account (name : AccountName) (field : Field)
  deriving DecidableEq

def Field.read : Field → AccountSequence → ℕ
  | recv => recvSequence
  | auth => authSequence

namespace Counter

variable {σ : Type}

def value (s : State σ) : Counter → ℕ
  | globalAction => s.globalActionSequence
  | account name field => (s.sequences.find? name).elim 0 field.read

def count (e : Execution) : Counter → ℕ
  | globalAction => 1
  | account name .recv => if e.receipt.receiver = name then 1 else 0
  | account name .auth => e.act.authorization.countP fun auth => auth.actor = name

def sequence (K : Counter) (e : Execution) : Option ℕ :=
  match K with
  | globalAction => some e.receipt.globalSequence
  | account name .recv => if e.receipt.receiver = name then some e.receipt.recvSequence else none
  | account name .auth => e.receipt.authSequence.find? name

end Counter

def marks : ℕ → List ℕ → List ℕ
  | _, [] => []
  | a, c :: l => if c = 0 then marks a l else (a + c) :: marks (a + c) l

lemma marks_concat (a c : ℕ) (l : List ℕ) :
    marks a (l ++ [c]) = marks a l ++ (if c = 0 then none else some (a + l.sum + c)).toList := by
  induction l generalizing a with
  | nil => by_cases hc : c = 0 <;> simp [marks, hc]
  | cons d l ih =>
    by_cases hd : d = 0
    · simp [marks, hd, ih]
    · simp [marks, hd, ih, Nat.add_assoc]

lemma marks_eq_range_iff (a : ℕ) (l : List ℕ) :
    marks a l = range' (a + 1) (marks a l).length ↔ ∀ c ∈ l, c ≤ 1 := by
  induction l generalizing a with
  | nil => simp [marks]
  | cons c l ih =>
    rw [forall_mem_cons, marks]
    split_ifs with hc
    · rw [ih]
      exact ⟨fun h => ⟨by omega, h⟩, fun h => h.2⟩
    · rw [length_cons, range'_succ, List.cons.injEq]
      constructor
      · rintro ⟨hone, hrest⟩
        obtain rfl : c = 1 := by omega
        exact ⟨le_rfl, (ih (a + 1)).mp hrest⟩
      · rintro ⟨hone, hrest⟩
        obtain rfl : c = 1 := by omega
        exact ⟨rfl, (ih (a + 1)).mpr hrest⟩

end

section

variable {σ : Type} {env : Env σ} {s s' : State σ} {c c' : ApplyContext} {name : AccountName} {K : Counter}

variable {row : AccountSequence} {p q : ApplyContext × State σ}

lemma accountSequence_ok (h : s.accountSequence name = .ok row) :
    s.sequences.find? name = some row := by
  rw [State.accountSequence] at h
  cases hrow : s.sequences.find? name with
  | none =>
    rw [hrow] at h
    cases h
  | some found =>
    rw [hrow] at h
    cases h
    rfl

structure Same (s s' : State σ) : Prop where
  executed : s'.executed = s.executed
  limit : s'.maxInlineActionDepth = s.maxInlineActionDepth

def raised (name : AccountName) (d : Field → ℕ) : Counter → ℕ
  | .globalAction => 0
  | .account other field => if name = other then d field else 0

lemma raised_zero (name : AccountName) (K : Counter) : raised name (fun _ => 0) K = 0 := by
  cases K with
  | globalAction => rfl
  | account other field => exact ite_self 0

lemma value_set {d : Field → ℕ}
    (hrow : ∀ field : Field, field.read row = Counter.value s (.account name field) + d field) :
    K.value { s with sequences := s.sequences.set name row } = K.value s + raised name d K := by
  cases K with
  | globalAction => rfl
  | account other field =>
    by_cases hn : name = other
    · subst hn
      simpa [Counter.value, raised, find?_set_self] using hrow field
    · simp [Counter.value, raised, hn, find?_set_of_ne]

lemma modifySequence_spec {f : AccountSequence → AccountSequence} {r : AccountSequence × State σ}
    (h : s.modifySequence name f = .ok r) (d : Field → ℕ)
    (hf : ∀ (field : Field) row, field.read (f row) = field.read row + d field) :
    Same s r.2 ∧ (∀ K : Counter, K.value r.2 = K.value s + raised name d K) ∧
      ∀ field : Field, field.read r.1 = Counter.value r.2 (.account name field) := by
  obtain ⟨row, hrow, h⟩ := bind_ok h
  have hfind := accountSequence_ok hrow
  cases h
  refine ⟨⟨rfl, rfl⟩, fun K => value_set fun field => ?_, fun field => ?_⟩
  · rw [hf, Counter.value, hfind]
    rfl
  · simp [Counter.value, find?_set_self]

def once (field other : Field) : ℕ := if field = other then 1 else 0

def authorized (l : List PermissionLevel) : Counter → ℕ
  | .account name .auth => l.countP fun auth => auth.actor = name
  | _ => 0

lemma authorized_cons (auth : PermissionLevel) (l : List PermissionLevel) (K : Counter) :
    authorized (auth :: l) K = raised auth.actor (once .auth) K + authorized l K := by
  rcases K with _ | ⟨name, _ | _⟩
  · rfl
  · simp [authorized, raised, once]
  · simp [authorized, raised, once, countP_cons, Nat.add_comm]

lemma nextAuthSequences_spec {l : List PermissionLevel} {p q : FlatMap AccountName ℕ × State σ}
    (h : l.foldlM State.nextAuthSequences p = .ok q) :
    Same p.2 q.2 ∧ (∀ K : Counter, K.value q.2 = K.value p.2 + authorized l K) ∧
      ∀ n, q.1.find? n = if authorized l (.account n .auth) = 0 then p.1.find? n
        else some (Counter.value q.2 (.account n .auth)) := by
  induction l generalizing p with
  | nil =>
    cases h
    exact ⟨⟨rfl, rfl⟩, fun K => by rcases K with _ | ⟨_, _ | _⟩ <;> rfl, fun n => rfl⟩
  | cons auth l ih =>
    rw [foldlM_cons] at h
    obtain ⟨t, ht, h⟩ := bind_ok h
    obtain ⟨r, hr, ht⟩ := bind_ok ht
    cases ht
    obtain ⟨hsame, hvalue, hread⟩ := modifySequence_spec hr (once .auth) fun field row => by cases field <;> rfl
    obtain ⟨hsame', hvalue', hfind⟩ := ih h
    refine ⟨⟨hsame'.executed.trans hsame.executed, hsame'.limit.trans hsame.limit⟩, fun K => ?_, fun n => ?_⟩
    · rw [hvalue', hvalue, authorized_cons]
      omega
    · rw [hfind, authorized_cons]
      by_cases hn : auth.actor = n
      · subst hn
        have hone : raised auth.actor (once .auth) (.account auth.actor .auth) = 1 := by simp [raised, once]
        rw [find?_set_self, hone, if_neg (show 1 + authorized l (.account auth.actor .auth) ≠ 0 by omega)]
        split_ifs with hzero
        · rw [hvalue', hzero]
          exact congrArg some (hread .auth)
        · rfl
      · have hnone : raised auth.actor (once .auth) (.account n .auth) = 0 := by simp [raised, hn]
        rw [hnone, Nat.zero_add, find?_set_of_ne _ _ hn]

structure Records (c : ApplyContext) (s s' : State σ) (e : Execution) : Prop where
  executed : s'.executed = s.executed ++ [e]
  depth : e.recurseDepth = c.recurseDepth
  value : ∀ K : Counter, K.value s' = K.value s + K.count e
  sequence : ∀ K : Counter, K.sequence e = if K.count e = 0 then none else some (K.value s')

lemma record_spec (h : c.record env s = .ok s') :
    s'.maxInlineActionDepth = s.maxInlineActionDepth ∧ ∃ e, Records c s s' e := by
  obtain ⟨⟨row, s1⟩, hrecv, h⟩ := bind_ok h
  obtain ⟨account, -, h⟩ := bind_ok h
  obtain ⟨⟨authSequence, s2⟩, hauth, h⟩ := bind_ok h
  cases h
  obtain ⟨hsame, hvalue, hread⟩ := modifySequence_spec hrecv (once .recv) fun field row => by cases field <;> rfl
  obtain ⟨hsame', hvalue', hfind⟩ := nextAuthSequences_spec hauth
  refine ⟨hsame'.limit.trans hsame.limit, _, congrArg (· ++ [_]) (hsame'.executed.trans hsame.executed), rfl,
    fun K => ?_, fun K => ?_⟩
  · have hK := hvalue' K
    rw [hvalue K] at hK
    rcases K with _ | ⟨name, _ | _⟩
    · exact hK
    · exact hK
    · have hnone : raised c.receiver (once .recv) (.account name .auth) = 0 := by simp [raised, once]
      rw [hnone] at hK
      exact hK
  · rcases K with _ | ⟨name, _ | _⟩
    · rfl
    · by_cases hn : c.receiver = name
      · subst hn
        have hK := hvalue' (.account c.receiver .recv)
        rw [← hread .recv] at hK
        simp only [Counter.sequence, Counter.count, if_true, one_ne_zero, if_false]
        exact congrArg some hK.symm
      · simp [Counter.sequence, Counter.count, hn]
    · exact hfind name

structure Kept (p q : ApplyContext × State σ) : Prop where
  executed : q.2.executed = p.2.executed
  depth : q.1.recurseDepth = p.1.recurseDepth
  value : ∀ K : Counter, K.value q.2 = K.value p.2

lemma perform_spec {r : Request} (h : perform env p r = .ok q) :
    Kept p q ∧ (q.2.maxInlineActionDepth = p.2.maxInlineActionDepth ∨
      r = .setMaxInlineActionDepth q.2.maxInlineActionDepth) := by
  cases r with
  | requireRecipient recipient =>
    cases h
    refine ⟨⟨rfl, ?_, fun _ => rfl⟩, .inl rfl⟩
    split_ifs <;> rfl
  | executeInline a =>
    obtain ⟨c, hc, rfl⟩ := exists_of_map_ok h
    obtain ⟨-, hc⟩ := eosAssert_ok hc
    obtain ⟨-, -, hc⟩ := bind_ok hc
    obtain ⟨-, -, hc⟩ := bind_ok hc
    cases hc
    exact ⟨⟨rfl, rfl, fun _ => rfl⟩, .inl rfl⟩
  | executeContextFreeInline a =>
    obtain ⟨c, hc, rfl⟩ := exists_of_map_ok h
    iterate 2 obtain ⟨-, hc⟩ := eosAssert_ok hc
    cases hc
    exact ⟨⟨rfl, rfl, fun _ => rfl⟩, .inl rfl⟩
  | newAccount name =>
    obtain ⟨hnew, h⟩ := eosAssert_ok h
    cases h
    refine ⟨⟨rfl, rfl, fun K => ?_⟩, .inl rfl⟩
    have hnone : p.2.sequences.find? name = none := by simpa [State.isAccount, FlatMap.contains] using hnew
    refine (value_set (d := fun _ => 0) fun field => ?_).trans (by rw [raised_zero]; rfl)
    cases field <;> simp [Counter.value, hnone, Field.read]
  | setCode account =>
    obtain ⟨t, ht, rfl⟩ := exists_of_map_ok h
    obtain ⟨hsame, hvalue, -⟩ := modifySequence_spec ht (fun _ => 0) fun field row => by cases field <;> rfl
    refine ⟨⟨hsame.executed, rfl, fun K => ?_⟩, .inl hsame.limit⟩
    rw [hvalue, raised_zero, Nat.add_zero]
  | setAbi account =>
    obtain ⟨t, ht, rfl⟩ := exists_of_map_ok h
    obtain ⟨hsame, hvalue, -⟩ := modifySequence_spec ht (fun _ => 0) fun field row => by cases field <;> rfl
    refine ⟨⟨hsame.executed, rfl, fun K => ?_⟩, .inl hsame.limit⟩
    rw [hvalue, raised_zero, Nat.add_zero]
  | setMaxInlineActionDepth depth =>
    cases h
    exact ⟨⟨rfl, rfl, fun K => by cases K <;> rfl⟩, .inr rfl⟩

def Env.KeepsBelow (env : Env σ) (limit : ℕ) : Prop :=
  ∀ c s requests rest, env.run c s = .ok (requests, rest) →
    ∀ depth, Request.setMaxInlineActionDepth depth ∈ requests → depth ≤ limit

lemma perform_all {requests : List Request}
    (h : requests.foldlM (perform env) p = .ok q) :
    Kept p q ∧ (q.2.maxInlineActionDepth = p.2.maxInlineActionDepth ∨
      .setMaxInlineActionDepth q.2.maxInlineActionDepth ∈ requests) := by
  induction requests generalizing p with
  | nil =>
    cases h
    exact ⟨⟨rfl, rfl, fun _ => rfl⟩, .inl rfl⟩
  | cons r requests ih =>
    rw [foldlM_cons] at h
    obtain ⟨t, ht, h⟩ := bind_ok h
    obtain ⟨hkept, hlimit⟩ := perform_spec ht
    obtain ⟨hkept', hlimit'⟩ := ih h
    refine ⟨⟨hkept'.executed.trans hkept.executed, hkept'.depth.trans hkept.depth,
      fun K => (hkept'.value K).trans (hkept.value K)⟩, ?_⟩
    rcases hlimit' with hsame | hmem
    · rw [hsame]
      exact hlimit.imp_right fun hr => mem_cons.mpr (.inl hr.symm)
    · exact .inr (mem_cons_of_mem _ hmem)

lemma execOne_spec (h : execOne env p = .ok q) :
    q.1.recurseDepth = p.1.recurseDepth ∧ (∃ e, Records p.1 p.2 q.2 e) ∧
      ∀ limit, env.KeepsBelow limit → p.2.maxInlineActionDepth ≤ limit → q.2.maxInlineActionDepth ≤ limit := by
  obtain ⟨-, -, h⟩ := bind_ok h
  obtain ⟨⟨requests, rest⟩, hrun, h⟩ := bind_ok h
  obtain ⟨⟨c, s⟩, hall, h⟩ := bind_ok h
  obtain ⟨s', hrecord, h⟩ := bind_ok h
  cases h
  obtain ⟨hkept, hlimit⟩ := perform_all hall
  obtain ⟨hsame, e, he⟩ := record_spec hrecord
  refine ⟨hkept.depth, ⟨e, ?_, ?_, fun K => ?_, he.sequence⟩, fun limit hbelow hle => ?_⟩
  · rw [he.executed, hkept.executed]
  · exact he.depth.trans hkept.depth
  · rw [he.value, hkept.value]
    rfl
  · rw [hsame]
    rcases hlimit with heq | hmem
    · rw [heq]
      exact hle
    · exact hbelow _ _ _ _ hrun _ hmem

end

section

variable {σ : Type} {env : Env σ} {P : State σ → Prop} {limit : ℕ}

variable {p q : ApplyContext × State σ}

lemma notify_invariant
    (hone : ∀ p q, p.1.recurseDepth ≤ limit → P p.2 → execOne env p = .ok q → P q.2) {n i : ℕ}
    (hdepth : p.1.recurseDepth ≤ limit) (hp : P p.2)
    (h : notify env n i p = .ok q) : q.1.recurseDepth = p.1.recurseDepth ∧ P q.2 := by
  induction n generalizing i p with
  | zero => cases h
  | succ n ih =>
    rw [notify] at h
    split at h
    · cases h
      exact ⟨rfl, hp⟩
    · next receiver _ =>
      obtain ⟨t, ht, h⟩ := bind_ok h
      have hsame := (execOne_spec ht).1
      obtain ⟨hq, hP⟩ := ih (hsame.trans_le hdepth) (hone ({ p.1 with receiver := receiver }, p.2) t hdepth hp ht) h
      exact ⟨hq.trans hsame, hP⟩

lemma foldlM_of_ne_nil {f : State σ → Action → Result (State σ)} {l : List Action}
    (hstep : l ≠ [] → ∀ s a t, P s → f s a = .ok t → P t) {s t : State σ} (hs : P s) (h : l.foldlM f s = .ok t) :
    P t := by
  cases l with
  | nil =>
    cases h
    exact hs
  | cons a l => exact foldlM_invariant (hstep (cons_ne_nil a l)) hs h

lemma exec_invariant
    (hone : ∀ p q, p.1.recurseDepth ≤ limit → P p.2 → execOne env p = .ok q → P q.2)
    (hlimit : ∀ s, P s → s.maxInlineActionDepth ≤ limit) {n : ℕ} {c : ApplyContext} {s s' : State σ}
    (hdepth : c.recurseDepth ≤ limit) (hs : P s) (h : exec env n c s = .ok s') : P s' := by
  induction n generalizing c s s' with
  | zero => cases h
  | succ n ih =>
    obtain ⟨p, hp, h⟩ := bind_ok h
    obtain ⟨⟨c1, s1⟩, hnotify, h⟩ := bind_ok h
    obtain ⟨u, hallowed, h⟩ := bind_ok h
    obtain ⟨s2, hcfa, h⟩ := bind_ok h
    have hfirst := (execOne_spec hp).1
    obtain ⟨hc, hs1⟩ := notify_invariant hone (hfirst.trans_le hdepth) (hone _ _ hdepth hs hp) hnotify
    have hnext : c1.cfaInlineActions ≠ [] ∨ c1.inlineActions ≠ [] → c1.recurseDepth + 1 ≤ limit := by
      intro hsome
      rw [if_pos hsome, eosAssert_eq_ok] at hallowed
      exact Nat.lt_of_lt_of_le hallowed (hlimit s1 hs1)
    have hs2 := foldlM_of_ne_nil (fun hne t a u ht hu => ih (hnext (.inl hne)) ht hu) hs1 hcfa
    exact foldlM_of_ne_nil (fun hne t a u ht hu => ih (hnext (.inr hne)) ht hu) hs2 h

lemma execTransaction_invariant
    (hone : ∀ p q, p.1.recurseDepth ≤ limit → P p.2 → execOne env p = .ok q → P q.2)
    (hlimit : ∀ s, P s → s.maxInlineActionDepth ≤ limit) (hrest : ∀ s rest, P s → P { s with rest := rest }) {n : ℕ}
    {trx : Transaction} {applyContextFree delayed : Bool} {s s' : State σ} (hs : P s)
    (h : execTransaction env n trx applyContextFree delayed s = .ok s') : P s' := by
  obtain ⟨s1, hcfa, h⟩ := bind_ok h
  have hs1 := foldlM_invariant (fun t a u ht hu => exec_invariant hone hlimit (Nat.zero_le _) ht hu) hs hcfa
  split_ifs at h
  · obtain ⟨rest, -, h⟩ := bind_ok h
    cases h
    exact hrest s1 rest hs1
  · exact foldlM_invariant (fun t a u ht hu => exec_invariant hone hlimit (Nat.zero_le _) ht hu) hs1 h

structure Counts (o s : State σ) (K : Counter) : Prop where
  value : K.value s = K.value o + (s.executed.map K.count).sum
  sequences : s.executed.filterMap K.sequence = marks (K.value o) (s.executed.map K.count)

lemma Counts.execOne {o : State σ} {K : Counter} (hp : Counts o p.2 K)
    (h : execOne env p = .ok q) : Counts o q.2 K := by
  obtain ⟨-, ⟨e, he⟩, -⟩ := execOne_spec h
  have hvalue : K.value q.2 = K.value o + (p.2.executed.map K.count).sum + K.count e := by rw [he.value, hp.value]
  refine ⟨?_, ?_⟩
  · rw [hvalue, he.executed, map_append, sum_append, Nat.add_assoc]
    rfl
  · rw [he.executed, map_append, filterMap_append, hp.sequences, map_singleton, marks_concat, ← hvalue, ← he.sequence]
    cases hseq : K.sequence e <;> simp [hseq]

def Consecutive (s s' : State σ) (K : Counter) : Prop :=
  s'.executed.filterMap K.sequence = range' (K.value s + 1) (s'.executed.filterMap K.sequence).length

theorem receipts_consecutive {n : ℕ} {trx : Transaction} {applyContextFree delayed : Bool} {s s' : State σ}
    (hs : s.executed = []) (h : execTransaction env n trx applyContextFree delayed s = .ok s') :
    Consecutive s s' .globalAction ∧ (∀ receiver, Consecutive s s' (.account receiver .recv)) ∧
      (∀ actor, Consecutive s s' (.account actor .auth) ↔
        ∀ e ∈ s'.executed, e.act.authorization.countP (fun auth => auth.actor = actor) ≤ 1) ∧
      ∀ limit, env.KeepsBelow limit → s.maxInlineActionDepth ≤ limit → ∀ e ∈ s'.executed, e.recurseDepth ≤ limit := by
  have hcounts : ∀ K, Counts s s' K := by
    intro K
    refine execTransaction_invariant (P := fun t => Counts s t K) (fun p q _ hp hq => hp.execOne hq)
      (fun t _ => t.maxInlineActionDepth.isLt.le)
      (fun t rest ht => ⟨?_, ht.sequences⟩) ⟨?_, ?_⟩ h
    · cases K <;> exact ht.value
    · simp [hs]
    · simp [hs, marks]
  have hiff : ∀ K, Consecutive s s' K ↔ ∀ e ∈ s'.executed, K.count e ≤ 1 := by
    intro K
    rw [Consecutive, (hcounts K).sequences, marks_eq_range_iff, forall_mem_map]
  refine ⟨(hiff _).mpr fun e _ => le_rfl, fun receiver => (hiff _).mpr fun e _ => ?_, fun actor => hiff _,
    fun limit hbelow hle => ?_⟩
  · rw [Counter.count]
    split_ifs <;> omega
  · refine (execTransaction_invariant (P := fun t => t.maxInlineActionDepth ≤ limit ∧
      ∀ e ∈ t.executed, e.recurseDepth ≤ limit) (fun p q hdepth hp hq => ?_) (fun t ht => ht.1) (fun t rest ht => ht)
      ⟨hle, by simp [hs]⟩ h).2
    obtain ⟨-, ⟨e, he⟩, hlimit⟩ := execOne_spec hq
    refine ⟨hlimit limit hbelow hp.1, ?_⟩
    rw [he.executed, forall_mem_append, forall_mem_singleton, he.depth]
    exact ⟨hp.2, hdepth⟩

def aliceName : AccountName := 1

def twiceAuthorized : Action :=
  { account := aliceName, name := 1, authorization := [⟨aliceName, 1⟩, ⟨aliceName, 2⟩], data := .bytes [] }

def idleEnv : Env Unit where
  digest _ := 0
  privileged _ _ := false
  permissionExists _ _ := true
  skipAuthCheck := false
  checkAuthorization _ _ _ := .ok ()
  run _ _ := .ok ([], ())
  scheduleTransaction := .ok

def aliceOnly : State Unit := ⟨0, FlatMap.empty.set aliceName {}, 4, (), []⟩

theorem receipts_skip_auth_sequences :
    (execTransaction idleEnv 10 { actions := [twiceAuthorized, twiceAuthorized] } true false aliceOnly).map
      (fun s => s.executed.filterMap (Counter.account aliceName .auth).sequence) = .ok [2, 4] := by
  decide +kernel

def relay : Action := { twiceAuthorized with authorization := [⟨aliceName, 1⟩] }

def sendRelay (c : ApplyContext) (_ : State Unit) : Result (List Request × Unit) :=
  .ok (if c.recurseDepth = 0 ∧ c.receiver = aliceName then [.requireRecipient 2, .executeInline relay] else [], ())

def relayEnv : Env Unit := { idleEnv with run := sendRelay }

def aliceAndBob : State Unit := { aliceOnly with sequences := aliceOnly.sequences.set 2 {} }

theorem receipts_consecutive_of_relay :
    ∃ s', execTransaction relayEnv 10 { actions := [relay] } true false aliceAndBob = .ok s' ∧
      s'.executed.map (fun e => e.receipt.receiver) = [1, 2, 1] ∧ Consecutive aliceAndBob s' .globalAction ∧
      ∀ receiver, Consecutive aliceAndBob s' (.account receiver .recv) := by
  have hrun : (execTransaction relayEnv 10 { actions := [relay] } true false aliceAndBob).map
      (fun s => s.executed.map fun e => e.receipt.receiver) = .ok [1, 2, 1] := by
    decide +kernel
  obtain ⟨s', hs', hreceivers⟩ := exists_of_map_ok hrun
  obtain ⟨hglobal, hrecv, -⟩ := receipts_consecutive rfl hs'
  exact ⟨s', hs', hreceivers, hglobal, hrecv⟩

end

end XosChain.Actions
