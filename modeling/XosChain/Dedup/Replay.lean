import XosChain.Dedup.NoReplay

namespace XosChain.Dedup

open Lib FlatMap BlockSession Node Settings

variable {s : Settings} {t t' : Table} {last : ℕ}

structure Block where
  time : ℕ
  trxs : List InputTrx

def applyBlock (s : Settings) (t : Table) (b : Block) : Result Table :=
  b.trxs.foldlM (pushTransaction s b.time) (clearExpiredInputTransactions b.time t)

def applyBlocks (s : Settings) (blocks : List Block) (t : Table) : Result Table := blocks.foldlM (applyBlock s) t

def Settings.replaying (s : Settings) (last : ℕ) (skipTrxChecks : Bool) : Settings :=
  { s with skipTrxChecks, replayHeadTime := some last }

def Agree (last : ℕ) (t t' : Table) : Prop :=
  ∀ id, t'.find? id = t.find? id ∨ t'.find? id = none ∧ ∃ e, t.find? id = some e ∧ timePoint e ≤ last

lemma Agree.clear (h : Agree last t t') (now : ℕ) :
    Agree last (clearExpiredInputTransactions now t) (clearExpiredInputTransactions now t') := by
  intro id
  rw [find?_clear, find?_clear]
  rcases h id with he | ⟨hn, e, he, hlast⟩
  · exact .inl (by rw [he])
  · rw [hn, he]
    by_cases hk : now ≤ timePoint e
    · exact .inr ⟨rfl, e, by simp [Option.filter, hk], hlast⟩
    · exact .inl (by simp [Option.filter, hk])

lemma Agree.set (h : Agree last t t') (id : TransactionId) (e : ℕ) : Agree last (t.set id e) (t'.set id e) := by
  intro j
  rw [find?_set, find?_set]
  split_ifs
  · exact .inl rfl
  · exact h j

lemma Agree.skip (h : Agree last t t') {id : TransactionId} {e : ℕ} (hn : t.find? id = none)
    (he : timePoint e ≤ last) : Agree last (t.set id e) t' := by
  intro j
  rw [find?_set]
  split_ifs with hj
  · subst hj
    refine .inr ⟨?_, e, rfl, he⟩
    rcases h id with ht | ⟨ht, -⟩
    · rw [ht, hn]
    · exact ht
  · exact h j

lemma Agree.none (h : Agree last t t') {id : TransactionId} (hn : t.find? id = none) : t'.find? id = none := by
  rcases h id with ht | ⟨ht, -⟩
  · rw [ht, hn]
  · exact ht

def FromTrxs (p : Packing) (t : Table) : Prop :=
  ∀ id e, t.find? id = some e → ∃ x : Transaction, p.id x = id ∧ x.expiration = e

section

variable (skip : Bool) {now : ℕ} {t1 : Table}

section

variable (hs : s.skipTrxChecks = false) (hr : s.replayHeadTime = none) (h : Agree last t t')

include hs hr h

lemma pushTransaction_replayed {i : InputTrx} (hp : pushTransaction s now t i = .ok t1) :
    ∃ t1', pushTransaction (s.replaying last skip) now t' i = .ok t1' ∧ Agree last t1 t1' := by
  obtain ⟨-, hn, rfl⟩ := pushTransaction_records hr hp
  obtain ⟨u, hu, hx⟩ := bind_ok hp
  obtain ⟨e, hexec, -⟩ := bind_ok hx
  obtain ⟨v, hv, hu⟩ := bind_ok hu
  obtain ⟨w, hinit, -⟩ := bind_ok hu
  have hchecks : trxChecks (s.replaying last skip) now i = .ok v := by
    cases skip with
    | true => rfl
    | false => simpa only [trxChecks, replaying, hs, Bool.false_eq_true, if_false] using hv
  have hpush : ∀ t1', record (s.replaying last skip) t' i = .ok t1' →
      pushTransaction (s.replaying last skip) now t' i = .ok t1' := by
    intro t1' hrec
    refine result_bind.mpr ⟨t1', ?_, result_bind.mpr ⟨e, hexec, rfl⟩⟩
    exact result_bind.mpr ⟨v, hchecks, result_bind.mpr ⟨w, hinit, hrec⟩⟩
  by_cases hl : timePoint i.trx.expiration ≤ last
  · refine ⟨t', hpush t' ?_, h.skip hn hl⟩
    simp [record, skipRecording, replaying, hl, pure, Except.pure]
  · refine ⟨_, hpush _ ?_, h.set _ _⟩
    rw [record, if_neg (by simp [skipRecording, replaying, hl])]
    exact recordTransaction_ok.mpr ⟨h.none hn, rfl⟩

lemma applyBlock_replayed {b : Block} (hp : applyBlock s t b = .ok t1) :
    ∃ t1', applyBlock (s.replaying last skip) t' b = .ok t1' ∧ Agree last t1 t1' := by
  have hstep : ∀ u u' i u1, Agree last u u' → pushTransaction s b.time u i = .ok u1 →
      ∃ u1', pushTransaction (s.replaying last skip) b.time u' i = .ok u1' ∧ Agree last u1 u1' :=
    fun u u' i u1 ha hi => pushTransaction_replayed skip hs hr ha hi
  exact foldlM_simulation hstep (h.clear b.time) hp

lemma applyBlocks_replayed {blocks : List Block} (hp : applyBlocks s blocks t = .ok t1) :
    ∃ t1', applyBlocks (s.replaying last skip) blocks t' = .ok t1' ∧ Agree last t1 t1' := by
  have hstep : ∀ u u' b u1, Agree last u u' → applyBlock s u b = .ok u1 →
      ∃ u1', applyBlock (s.replaying last skip) u' b = .ok u1' ∧ Agree last u1 u1' :=
    fun u u' b u1 ha hb => applyBlock_replayed skip hs hr ha hb
  exact foldlM_simulation hstep h hp

end

end

section

variable {now : ℕ} {t1 : Table}

lemma FromTrxs.clear (h : FromTrxs s.packing t) (now : ℕ) :
    FromTrxs s.packing (clearExpiredInputTransactions now t) := by
  intro id e he
  rw [find?_clear, Option.filter_eq_some_iff] at he
  exact h id e he.1

section

variable (hr : s.replayHeadTime = none) (h : FromTrxs s.packing t)

include hr h

lemma FromTrxs.push {i : InputTrx} (hp : pushTransaction s now t i = .ok t1) : FromTrxs s.packing t1 := by
  obtain ⟨-, -, rfl⟩ := pushTransaction_records hr hp
  exact forall_set h ⟨i.trx, rfl, rfl⟩

lemma FromTrxs.applyBlock {b : Block} (hp : applyBlock s t b = .ok t1) : FromTrxs s.packing t1 :=
  foldlM_invariant (fun _ _ _ hi hpush => hi.push hr hpush) (h.clear b.time) hp

lemma FromTrxs.applyBlocks {blocks : List Block} (hp : applyBlocks s blocks t = .ok t1) : FromTrxs s.packing t1 :=
  foldlM_invariant (fun _ _ _ hi hb => hi.applyBlock hr hb) h hp

end

end

section

variable {n n' : Node} {c c' : List BlockSession}

def Alike (s : Settings) (last : ℕ) (t t' : Table) : Prop :=
  ∀ x, last < timePoint x.expiration → t'.find? (s.packing.id x) = t.find? (s.packing.id x)

lemma Agree.alike (hid : IdsDetermineExpiration s.packing) (h : Agree last t t') (hf : FromTrxs s.packing t) :
    Alike s last t t' := by
  intro x hx
  rcases h (s.packing.id x) with he | ⟨-, e, he, hlast⟩
  · exact he
  · obtain ⟨y, hy, rfl⟩ := hf _ _ he
    rw [hid y x hy] at hlast
    exact absurd hx (not_lt.mpr hlast)

variable {when_ : ℕ} {r : Option ℕ} {allClear : Prop}

lemma Agree.alike_clear (h : Agree last t t') (hw : last < when_) :
    Alike s last (clearExpiredInputTransactions when_ t) (clearExpiredInputTransactions when_ t') := by
  intro x _
  rw [find?_clear, find?_clear]
  rcases h (s.packing.id x) with he | ⟨hn, e, he, hlast⟩
  · rw [he]
  · rw [hn, he]
    simp [Option.filter, hlast.trans_lt hw]

lemma Alike.clear (h : Alike s last t t') (when_ : ℕ) :
    Alike s last (clearExpiredInputTransactions when_ t) (clearExpiredInputTransactions when_ t') := by
  intro x hx
  rw [find?_clear, find?_clear, h x hx]

lemma Alike.set (h : Alike s last t t') (id : TransactionId) (e : ℕ) : Alike s last (t.set id e) (t'.set id e) := by
  intro x hx
  rw [find?_set, find?_set, h x hx]

def Paired (s : Settings) (last : ℕ) (allClear : Prop) :
    List BlockSession → List BlockSession → Table → Table → Prop
  | [], [], t, t' => Agree last t t' ∧ (allClear ∨ Alike s last t t')
  | b :: c, b' :: c', t, t' =>
    b'.time = b.time ∧ b'.receipts = b.receipts ∧ last < b.time ∧ Alike s last t t' ∧
      Paired s last allClear c c' b.before b'.before
  | _, _, _, _ => False

def Settings.after (s : Settings) (headTime : Option ℕ) : Settings := { s with replayHeadTime := headTime }

lemma pushTransaction_alike (hs : s.skipTrxChecks = false) (hr : s.replayHeadTime = none)
    (hl : r = none ∨ r = some last) (h : Alike s last t t') {now : ℕ} (hn : last < now) (i : InputTrx) :
    (∃ e, pushTransaction s now t i = .error e ∧ pushTransaction (s.after r) now t' i = .error e) ∨
      pushTransaction s now t i = .ok (t.set (s.packing.id i.trx) i.trx.expiration) ∧
        pushTransaction (s.after r) now t' i = .ok (t'.set (s.packing.id i.trx) i.trx.expiration) := by
  have hrec : record s t i = recordTransaction t (s.packing.id i.trx) i.trx.expiration := by
    rw [record, skipRecording, hr]
    rfl
  have hchecks : trxChecks (s.after r) now i = trxChecks s now i := rfl
  simp only [pushTransaction, initForInputTrx, hrec, hchecks, bind, Except.bind, pure, Except.pure]
  cases hc : trxChecks s now i with
  | error e => exact .inl ⟨e, rfl, rfl⟩
  | ok u =>
    have hlater := hn.trans_le (trxChecks_ok hs hc)
    have hx := h i.trx hlater
    have hrec' : record (s.after r) t' i = recordTransaction t' (s.packing.id i.trx) i.trx.expiration := by
      rcases hl with rfl | rfl
      · rfl
      · rw [record, if_neg (by simp [skipRecording, after, hlater])]
        rfl
    rw [hrec']
    cases i.init with
    | error e => exact .inl ⟨e, rfl, rfl⟩
    | ok v =>
      cases hf : t.find? (s.packing.id i.trx) with
      | some e =>
        rw [hf] at hx
        rw [recordTransaction_some hf, recordTransaction_some hx]
        exact .inl ⟨_, rfl, rfl⟩
      | none =>
        rw [hf] at hx
        rw [recordTransaction_ok.mpr ⟨hf, rfl⟩, recordTransaction_ok.mpr ⟨hx, rfl⟩]
        cases i.exec with
        | error e => exact .inl ⟨e, rfl, rfl⟩
        | ok w => exact .inr ⟨rfl, rfl⟩

structure Twin (s : Settings) (last : ℕ) (allClear : Prop) (n n' : Node) : Prop where
  base : n.base = last
  base' : n'.base = last
  pending : n'.pending.isSome = n.pending.isSome
  paired : Paired s last allClear n.blocks n'.blocks n.table n'.table

def SameOutcome (s : Settings) (last : ℕ) (allClear : Prop) (r r' : Result Node) : Prop :=
  (∃ e, r = .error e ∧ r' = .error e) ∨ ∃ m m', r = .ok m ∧ r' = .ok m' ∧ Twin s last allClear m m'

def Op.clears : Op → Bool
  | .startBlock _ clears => clears
  | _ => true

lemma Paired.headTime (h : Paired s last allClear c c' t t') :
    c'.head?.elim last time = c.head?.elim last time ∧
      last ≤ c.head?.elim last time := by
  cases c with
  | nil =>
    cases c' with
    | nil => exact ⟨rfl, le_rfl⟩
    | cons b' c' => exact h.elim
  | cons b c =>
    cases c' with
    | nil => exact h.elim
    | cons b' c' => exact ⟨h.1, h.2.2.1.le⟩

lemma Paired.startBlock (h : Paired s last allClear c c' t t') (hw : last < when_)
    {clears : Bool} (hc : allClear → clears = true) :
    Alike s last (if clears then clearExpiredInputTransactions when_ t else t)
      (if clears then clearExpiredInputTransactions when_ t' else t') := by
  have hnil : Agree last t t' ∧ (allClear ∨ Alike s last t t') ∨ Alike s last t t' := by
    cases c with
    | nil =>
      cases c' with
      | nil => exact .inl h
      | cons b' c' => exact h.elim
    | cons b c =>
      cases c' with
      | nil => exact h.elim
      | cons b' c' => exact .inr h.2.2.2.1
  cases clears with
  | true =>
    rcases hnil with ⟨ha, -⟩ | ha
    · exact ha.alike_clear hw
    · exact ha.clear when_
  | false =>
    rcases hnil with ⟨-, hall | ha⟩ | ha
    · exact absurd (hc hall) Bool.false_ne_true
    · exact ha
    · exact ha

lemma startBlock_eq (when_ : ℕ) (clears : Bool) (base : ℕ) (chain : List BlockSession) (t : Table) :
    startBlock ⟨base, chain, none, t⟩ when_ clears =
      if chain.head?.elim base time < when_ then
        .ok ⟨base, chain, some ⟨when_, [], t⟩, if clears then clearExpiredInputTransactions when_ t else t⟩
      else .error ⟨.blockValidateException, "next block must be in the future"⟩ := by
  by_cases hw : chain.head?.elim base time < when_
  · rw [if_pos hw]
    exact eosAssert_bind.mpr ⟨rfl, eosAssert_bind.mpr ⟨hw, rfl⟩⟩
  · rw [if_neg hw]
    simp [startBlock, headTime, eosAssert, hw, bind, Except.bind]

section

variable (h : Twin s last allClear n n')

include h

@[elab_as_elim]
lemma Twin.cases {P : Node → Node → Prop}
    (idle : ∀ c c' t t', Paired s last allClear c c' t t' → P ⟨last, c, none, t⟩ ⟨last, c', none, t'⟩)
    (busy : ∀ c c' b b' t t', Paired s last allClear (b :: c) (b' :: c') t t' →
      P ⟨last, c, some b, t⟩ ⟨last, c', some b', t'⟩) : P n n' := by
  obtain ⟨base, chain, pending, t⟩ := n
  obtain ⟨base', chain', pending', t'⟩ := n'
  obtain ⟨rfl, rfl, hp, hpaired⟩ := h
  cases pending with
  | none =>
    obtain rfl : pending' = none := by simpa using hp
    exact idle chain chain' t t' hpaired
  | some b =>
    obtain ⟨b', rfl⟩ := Option.isSome_iff_exists.mp hp
    exact busy chain chain' b b' t t' hpaired

lemma Twin.startBlock {clears : Bool} (hc : allClear → clears = true) :
    SameOutcome s last allClear (n.startBlock when_ clears) (n'.startBlock when_ clears) := by
  refine h.cases (fun c c' t t' hpaired => ?_) fun _ _ _ _ _ _ _ => .inl ⟨_, rfl, rfl⟩
  obtain ⟨hhead, hlast⟩ := hpaired.headTime
  rw [startBlock_eq, startBlock_eq, hhead]
  by_cases hw : c.head?.elim last time < when_
  · have hlater := hlast.trans_lt hw
    rw [if_pos hw, if_pos hw]
    exact .inr ⟨_, _, rfl, rfl, rfl, rfl, rfl, rfl, rfl, hlater, hpaired.startBlock hlater hc, hpaired⟩
  · rw [if_neg hw, if_neg hw]
    exact .inl ⟨_, rfl, rfl⟩

lemma Twin.push (hs : s.skipTrxChecks = false) (hr : s.replayHeadTime = none) (hl : r = none ∨ r = some last)
    (i : InputTrx) :
    SameOutcome s last allClear (n.push s i) (n'.push (s.after r) i) := by
  refine h.cases (fun _ _ _ _ _ => .inl ⟨_, rfl, rfl⟩) fun c c' b b' t t' hpaired => ?_
  obtain ⟨htime, hreceipts, hlater, halike, hbelow⟩ := hpaired
  rcases pushTransaction_alike hs hr hl halike hlater i with ⟨e, he, he'⟩ | ⟨ho, ho'⟩
  · refine .inl ⟨e, ?_, ?_⟩
    · simp only [Node.push, he]
      rfl
    · simp only [Node.push, htime, he']
      rfl
  · refine .inr ⟨_, _, result_bind.mpr ⟨_, ho, rfl⟩, result_bind.mpr ⟨_, htime.symm ▸ ho', rfl⟩, rfl, rfl, rfl, ?_⟩
    exact ⟨htime, congrArg (List.cons i.trx) hreceipts, hlater, halike.set _ _, hbelow⟩

lemma Twin.commitBlock :
    SameOutcome s last allClear n.commitBlock n'.commitBlock := by
  refine h.cases (fun _ _ _ _ _ => .inl ⟨_, rfl, rfl⟩) fun c c' b b' t t' hpaired => ?_
  exact .inr ⟨_, _, rfl, rfl, rfl, rfl, rfl, hpaired⟩

lemma Twin.abortBlock :
    SameOutcome s last allClear n.abortBlock n'.abortBlock := by
  refine h.cases (fun c c' t t' hpaired => ?_) fun c c' b b' t t' hpaired => ?_
  · exact .inr ⟨_, _, rfl, rfl, rfl, rfl, rfl, hpaired⟩
  · obtain ⟨-, -, -, -, hbelow⟩ := hpaired
    exact .inr ⟨_, _, rfl, rfl, rfl, rfl, rfl, hbelow⟩

lemma Twin.popBlock :
    SameOutcome s last allClear n.popBlock n'.popBlock := by
  refine h.cases (fun c c' t t' hpaired => ?_) fun _ _ _ _ _ _ _ => .inl ⟨_, rfl, rfl⟩
  cases c with
  | nil =>
    cases c' with
    | nil => exact .inl ⟨_, rfl, rfl⟩
    | cons b' c' => exact hpaired.elim
  | cons b c =>
    cases c' with
    | nil => exact hpaired.elim
    | cons b' c' =>
      obtain ⟨-, -, -, -, hbelow⟩ := hpaired
      exact .inr ⟨_, _, rfl, rfl, rfl, rfl, rfl, hbelow⟩

end

section

variable (hs : s.skipTrxChecks = false) (hr : s.replayHeadTime = none) (hl : r = none ∨ r = some last)
  (h : Twin s last allClear n n')

include hs hr hl h

lemma Twin.step {op : Op} (hc : allClear → op.clears = true) :
    SameOutcome s last allClear (n.step s op) (n'.step (s.after r) op) := by
  cases op with
  | startBlock when_ clears => exact h.startBlock hc
  | push i => exact h.push hs hr hl i
  | commitBlock => exact h.commitBlock
  | abortBlock => exact h.abortBlock
  | popBlock => exact h.popBlock

lemma Twin.run {ops : List Op} (hc : allClear → ∀ op ∈ ops, op.clears = true) :
    (n'.run (s.after r) ops).2 = (n.run s ops).2 := by
  induction ops generalizing n n' with
  | nil => rfl
  | cons op ops ih =>
    have hrest : allClear → ∀ o ∈ ops, o.clears = true := fun ha o ho => hc ha o (List.mem_cons_of_mem _ ho)
    rw [run, run]
    rcases h.step hs hr hl (fun ha => hc ha op List.mem_cons_self) with ⟨e, he, he'⟩ | ⟨m, m', hm, hm', ht⟩
    · simp only [exec, he, he', ih h hrest]
    · simp only [exec, hm, hm', ih ht hrest]

end

end

theorem replayed_node_accepts_the_same (hs : s.skipTrxChecks = false) (hr : s.replayHeadTime = none)
    {blocks : List Block} (ht : applyBlocks s blocks empty = .ok t) (last : ℕ) (skip : Bool) :
    ∃ t', applyBlocks (s.replaying last skip) blocks empty = .ok t' ∧
      ∀ ops : List Op, (∀ op ∈ ops, op.clears = true) ∨ IdsDetermineExpiration s.packing →
        ∀ r, r = none ∨ r = some last →
          (run (s.after r) { base := last, table := t' } ops).2 =
            (run s { base := last, table := t } ops).2 := by
  have hempty : Agree last empty empty := fun _ => .inl rfl
  have hnone : FromTrxs s.packing empty := by
    intro id e he
    cases he
  obtain ⟨t', ht', ha⟩ := applyBlocks_replayed skip hs hr hempty ht
  refine ⟨t', ht', ?_⟩
  intro ops hops r hl
  have hfrom := hnone.applyBlocks hr ht
  have hbase : (∀ op ∈ ops, op.clears = true) ∨ Alike s last t t' := hops.imp_right (fun hid => ha.alike hid hfrom)
  have htwin : Twin s last (∀ op ∈ ops, op.clears = true) { base := last, table := t }
      { base := last, table := t' } := ⟨rfl, rfl, rfl, ha, hbase⟩
  exact htwin.run hs hr hl id

def loggedBlocks : List Block := [⟨500000, [expiring 1, expiring 2]⟩, ⟨1000000, []⟩]

def laterOps : List Op :=
  [.startBlock 1500000 true, .push (expiring 1), .push (expiring 2), .push (expiring 3), .commitBlock]

theorem loggedBlocks_replayed :
    ∃ t t', applyBlocks expirationSettings loggedBlocks empty = .ok t ∧ t.keys = [1, 2] ∧
      applyBlocks (expirationSettings.replaying 1000000 true) loggedBlocks empty = .ok t' ∧ t'.keys = [2] ∧
      (run expirationSettings { base := 1000000, table := t' } laterOps).2 =
        (run expirationSettings { base := 1000000, table := t } laterOps).2 := by
  have hok : (applyBlocks expirationSettings loggedBlocks empty).map keys = .ok [1, 2] := by decide
  have hok' : (applyBlocks (expirationSettings.replaying 1000000 true) loggedBlocks empty).map keys =
      .ok [2] := by decide
  obtain ⟨t, ht, hkeys⟩ := exists_of_map_ok hok
  obtain ⟨t', ht', hsame⟩ := replayed_node_accepts_the_same rfl rfl ht 1000000 true
  rw [ht'] at hok'
  exact ⟨t, t', ht, hkeys, ht', Except.ok.inj hok', hsame laterOps (.inl (by decide)) none (.inl rfl)⟩

end XosChain.Dedup
