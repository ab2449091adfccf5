import XosChain.Producers.Plugin

namespace XosChain.Producers.Producer

open Lib Header Header.BlockHeaderState List Controller Crypto

variable {c : Crypto} {settings : Settings} {providers : SignatureProviders} {n n' : Producer} {s p : BlockHeaderState}

def confirmedRange (b : BlockHeaderState) : Finset ℕ := Finset.Icc (b.blockNum - b.header.confirmed) b.blockNum

def nextIrreversible (b : BlockHeaderState) : ℕ :=
  calcDposLastIrreversible (b.nextImpliedIrb (b.getScheduledProducer (b.header.timestamp + 1)).producerName)

def Installs (b : BlockHeaderState) (producer : AccountName) : Prop :=
  b.pendingScheduleLibNum ≤ nextIrreversible b ∧ (∃ k ∈ b.pendingSchedule.producers, k.producerName = producer) ∧
    isActive b.activeSchedule producer = false

def KeepsWatermarks (settings : Settings) (w : Watch) (b : BlockHeaderState) : Prop :=
  ∀ producer ∈ settings.producers, Installs b producer →
    ∀ m ∈ w.producerWatermarks.find? producer, m ≤ b.blockNum

def Faithful (c : Crypto) (providers : SignatureProviders) : Prop :=
  ∀ key provider digest signature, providers key = some provider → provider digest = .ok signature →
    c.recover signature digest = key

def Admissible (c : Crypto) (settings : Settings) (n : Producer) (op : SignatureProviders × Op) : Prop :=
  match op.2 with
  | .startBlock x => pendingSlot x.now n.head ≠ 0
  | .maybeProduceBlock o => Faithful c op.1 ∧ o.commit = none ∧ ∀ p ∈ n.pending, KeepsWatermarks settings n.watch p
  | .applyBlock h => ∀ s, n.head.next c h false = .ok s → KeepsWatermarks settings n.watch s
  | .popBlock => True

def AdmissibleRun (c : Crypto) (settings : Settings) (n : Producer) : List (SignatureProviders × Op) → Prop
  | [] => True
  | op :: ops => Admissible c settings n op ∧ AdmissibleRun c settings (step c settings n op) ops

def LowersNone (w w' : Watch) : Prop :=
  ∀ producer m, w.producerWatermarks.find? producer = some m →
    ∃ m' ≥ m, w'.producerWatermarks.find? producer = some m'

structure Guarded (n : Producer) : Prop where
  signed : ∀ b ∈ n.signed, ∃ w, n.watch.producerWatermarks.find? b.header.producer = some w ∧ b.blockNum ≤ w
  pending : n.pendingBlockMode = .producing → ∀ p ∈ n.pending, ∀ w,
    n.watch.producerWatermarks.find? p.header.producer = some w → w + p.header.confirmed < p.blockNum
  disjoint : n.signed.Pairwise fun b a =>
    b.header.producer = a.header.producer → a.blockNum + b.header.confirmed < b.blockNum

variable {x : Conditions}

lemma blocksToConfirm_le {scheduled : ProducerKey} {w headBlockNum : ℕ}
    (h : wantedMode settings providers x scheduled (some w) headBlockNum = .producing) (mode : PendingBlockMode) :
    w + blocksToConfirm mode (some w) headBlockNum ≤ headBlockNum := by
  have hw : w ≤ headBlockNum := by
    rw [wantedMode] at h
    split_ifs at h with _ _ _ _ _ hguard
    by_contra hlt
    exact hguard ⟨w, rfl, by omega⟩
  cases mode with
  | speculating => exact hw
  | producing =>
    rw [blocksToConfirm]
    split_ifs
    · have := Nat.mod_le (headBlockNum - w) (2 ^ 16)
      omega
    · omega

lemma controllerStartBlock_ok {slot : Slot} {confirmed : ℕ} (hslot : slot ≠ 0)
    (h : controllerStartBlock c x n.head slot confirmed = .ok p) :
    p.header.producer = (n.head.getScheduledProducer slot).producerName ∧ p.header.confirmed = confirmed ∧
      p.blockNum = n.head.blockNum + 1 := by
  rw [controllerStartBlock] at h
  cases hfault : x.fault with
  | some e =>
    rw [hfault] at h
    cases h
  | none =>
    rw [hfault] at h
    obtain ⟨t, ht, hheader, happly⟩ := startState_applies h
    obtain ⟨slot', hslot', hnum, htemplate⟩ := generateNext_header ht
    obtain rfl := nextSlot_ok hslot hslot'
    refine ⟨by rw [hheader, htemplate], by rw [hheader], ?_⟩
    exact (((maybePromotePending_core _).trans (applyNewProducers_core happly)).blockNum).trans hnum

section

variable {bsp : BlockHeaderState}

lemma ofResult_triple {σ α : Type} {r : Result α} {P : σ → Prop} {Q : α → σ → Prop}
    (h : ∀ a s, r = .ok a → P s → Q a s) : Triple P (ofResult r) Q (fun _ => P) := by
  intro s hs
  cases hr : r with
  | error e => exact hs
  | ok a => exact h a s hr hs

lemma confirmBlock_keeps (m : FlatMap AccountName ℕ) (producer : AccountName) :
    Triple (fun w => w.producerWatermarks = m) (confirmBlock c providers bsp producer)
      (fun _ w => w.producerWatermarks = m) (fun _ w => w.producerWatermarks = m) := by
  rw [confirmBlock]
  split_ifs
  · split
    · split
      · exact (ofResult_triple fun _ _ _ h => h).bind fun _ => .modify fun _ h => h
      · exact .pure () fun _ h => h
    · exact .pure () fun _ h => h
  · exact .pure () fun _ h => h

lemma onBlock_triple (c : Crypto) (settings : Settings) (providers : SignatureProviders) (bsp : BlockHeaderState)
    (m : FlatMap AccountName ℕ) :
    Triple (fun w => w.producerWatermarks = m) (onBlock c settings providers bsp)
      (fun _ w => w.producerWatermarks = m ∨
        ∃ installed, newProducers c settings bsp = .ok installed ∧ w.producerWatermarks = setWatermarks bsp installed m)
      (fun _ w => w.producerWatermarks = m) := by
  rw [onBlock]
  refine .getBind fun w hw => ?_
  split_ifs
  · exact (Triple.pure () fun _ h => .inl h).of_eq hw
  · refine Triple.of_eq (P := fun w => w.producerWatermarks = m) ?_ hw
    refine (Triple.forM fun producer => confirmBlock_keeps m producer).bind fun _ => ?_
    refine (ofResult_triple (Q := fun installed w => newProducers c settings bsp = .ok installed ∧ w.producerWatermarks = m)
      fun _ _ hr h => ⟨hr, h⟩).bind fun installed => ?_
    refine .modify ?_
    rintro w ⟨hr, rfl⟩
    exact .inr ⟨installed, hr, rfl⟩

lemma emitAcceptedBlock_watermarks (w : Watch) :
    (emitAcceptedBlock c settings providers bsp w).producerWatermarks = w.producerWatermarks ∨
      ∃ installed, newProducers c settings bsp = .ok installed ∧
        (emitAcceptedBlock c settings providers bsp w).producerWatermarks =
          setWatermarks bsp installed w.producerWatermarks := by
  have h := onBlock_triple c settings providers bsp w.producerWatermarks w rfl
  rw [emitAcceptedBlock]
  cases hx : onBlock c settings providers bsp w with
  | ok _ w' =>
    rw [hx] at h
    exact h
  | error _ w' =>
    rw [hx] at h
    exact .inl h

lemma newProducers_installs {installed : List AccountName} (h : newProducers c settings bsp = .ok installed)
    {producer : AccountName} (hp : producer ∈ installed) : producer ∈ settings.producers ∧ Installs bsp producer := by
  obtain ⟨-, h⟩ := eosAssert_ok h
  obtain ⟨t, ht, h⟩ := bind_ok h
  obtain ⟨slot, hslot, htemplate⟩ := generateNext_ok ht
  obtain rfl := nextSlot_ok (Nat.succ_ne_zero _) hslot
  split_ifs at h with hpromotes
  · obtain rfl := Except.ok.inj h
    obtain ⟨hmem, hlocal⟩ := mem_filter.mp hp
    obtain ⟨k, hk, hname⟩ := mem_map.mp hmem
    obtain ⟨hlocal, hactive⟩ := of_decide_eq_true hlocal
    rw [maybePromotePending, if_pos hpromotes.1, htemplate.pending] at hk
    have hlib := (of_decide_eq_true hpromotes.1).2
    rw [htemplate.pendingLib, htemplate.irreversible] at hlib
    exact ⟨hlocal, hlib, ⟨k, hk, hname⟩, hactive⟩
  · obtain rfl := Except.ok.inj h
    cases hp

lemma find?_setWatermarks (installed : List AccountName) (m : FlatMap AccountName ℕ) (producer : AccountName) :
    (setWatermarks bsp installed m).find? producer =
      if producer ∈ installed then some bsp.blockNum else m.find? producer := by
  rw [setWatermarks]
  induction installed generalizing m with
  | nil => simp
  | cons p installed ih =>
    rw [foldl_cons, ih, FlatMap.find?_set]
    by_cases hp : p = producer
    · simp [hp]
    · simp [hp, Ne.symm hp]

lemma KeepsWatermarks.lowersNone {w : Watch} (h : KeepsWatermarks settings w bsp) :
    LowersNone w (emitAcceptedBlock c settings providers bsp w) := by
  intro producer m hm
  obtain heq | ⟨installed, hn, heq⟩ := emitAcceptedBlock_watermarks (c := c) w
  · exact ⟨m, le_rfl, by rw [heq, hm]⟩
  · rw [heq, find?_setWatermarks]
    split_ifs with hp
    · obtain ⟨hlocal, hinstalls⟩ := newProducers_installs hn hp
      exact ⟨bsp.blockNum, h producer hlocal hinstalls m hm, rfl⟩
    · exact ⟨m, le_rfl, hm⟩

end

lemma Guarded.signed_le (h : n.Guarded) {w' : Watch} (hw : LowersNone n.watch w') {b : BlockHeaderState}
    (hb : b ∈ n.signed) :
    ∃ w, w'.producerWatermarks.find? b.header.producer = some w ∧ b.blockNum ≤ w := by
  obtain ⟨w, hfind, hle⟩ := h.signed b hb
  obtain ⟨w', hge, hfind'⟩ := hw _ _ hfind
  exact ⟨w', hfind', hle.trans hge⟩

lemma Guarded.startBlock (h : n.Guarded) (hslot : pendingSlot x.now n.head ≠ 0) :
    (startBlock c settings providers x n).Guarded := by
  rw [Producer.startBlock]
  split_ifs with hread hold
  · exact h
  · refine ⟨h.signed, ?_, h.disjoint⟩
    intro hmode
    rw [hold.1] at hmode
    cases hmode
  · split
    · refine ⟨h.signed, ?_, h.disjoint⟩
      intro _ p hp
      cases hp
    · rename_i p hstart
      obtain ⟨hproducer, hconfirmed, hnum⟩ := controllerStartBlock_ok hslot hstart
      refine ⟨h.signed, ?_, h.disjoint⟩
      intro hmode q hq w hw
      cases hq
      split_ifs at hmode
      rw [hproducer] at hw
      rw [hw] at hmode hconfirmed
      have := blocksToConfirm_le hmode (wantedMode settings providers x
        (n.head.getScheduledProducer (pendingSlot x.now n.head)) (some w) n.head.blockNum)
      omega

lemma signPending_ok {o : Outcome} (h : signPending c providers o n = .ok s) :
    n.pendingBlockMode = .producing ∧ ∃ p, n.pending = some p ∧ ∃ provider signature,
      providers p.blockSigningKey = some provider ∧
      provider ((finalizedState c p o.actionMroot o.transactionMroot).sigDigest c) = .ok signature ∧
      s = signedState (finalizedState c p o.actionMroot o.transactionMroot) signature := by
  obtain ⟨hmode, h⟩ := eosAssert_ok h
  obtain ⟨⟨p, provider⟩, hp, h⟩ := bind_ok h
  obtain ⟨-, -, h⟩ := bind_ok h
  obtain ⟨signature, hsign, h⟩ := bind_ok h
  cases h
  rw [pendingProvider] at hp
  split at hp
  · cases hp
  · split at hp
    · cases hp
    · cases hp
      exact ⟨hmode, p, by assumption, provider, signature, by assumption, hsign, rfl⟩

lemma Guarded.maybeProduceBlock (h : n.Guarded) {o : Outcome} (hf : Faithful c providers) (hcommit : o.commit = none)
    (hk : ∀ p ∈ n.pending, KeepsWatermarks settings n.watch p) :
    (maybeProduceBlock c settings providers o n).Guarded := by
  rw [Producer.maybeProduceBlock]
  cases hs : signPending c providers o n with
  | error e =>
    refine ⟨h.signed, ?_, h.disjoint⟩
    intro _ p hp
    cases hp
  | ok s =>
    obtain ⟨hmode, p, hp, provider, signature, hprovider, hsign, rfl⟩ := signPending_ok hs
    set s := signedState (finalizedState c p o.actionMroot o.transactionMroot) signature with hsdef
    have hkey : s.blockSigningKey = s.signee c := (hf _ _ _ _ hprovider hsign).symm
    have hkeeps : KeepsWatermarks settings n.watch s := hk p hp
    have hlowers : LowersNone n.watch (emitAcceptedBlock c settings providers s n.watch) := hkeeps.lowersNone
    -- every block signed for this producer lies below what the new one confirms
    have hbelow : ∀ b ∈ n.signed, s.header.producer = b.header.producer →
        b.blockNum + s.header.confirmed < s.blockNum := by
      intro b hb hsame
      obtain ⟨w, hw, hle⟩ := h.signed b hb
      have hpending : w + p.header.confirmed < p.blockNum := h.pending hmode p hp w (hsame ▸ hw)
      change b.blockNum + p.header.confirmed < p.blockNum
      omega
    dsimp only
    rw [commitSigned, if_pos hkey, hcommit]
    refine ⟨?_, fun _ q hq => (by cases hq), pairwise_cons.mpr ⟨hbelow, h.disjoint⟩⟩
    intro b hb
    by_cases hsame : s.header.producer = b.header.producer
    · refine ⟨s.blockNum, by rw [← hsame]; exact FlatMap.find?_set_self _ _ _, ?_⟩
      obtain rfl | hb := mem_cons.mp hb
      · exact le_rfl
      · have := hbelow b hb hsame
        omega
    · have hb : b ∈ n.signed := (mem_cons.mp hb).resolve_left (fun he => hsame (he ▸ rfl))
      obtain ⟨w, hw, hle⟩ := h.signed_le hlowers hb
      exact ⟨w, (FlatMap.find?_set_of_ne _ _ hsame).trans hw, hle⟩

lemma Guarded.step (h : n.Guarded) {op : SignatureProviders × Op} (ha : Admissible c settings n op) :
    (step c settings n op).Guarded := by
  obtain ⟨providers, op⟩ := op
  cases op with
  | startBlock x => exact h.startBlock ha
  | maybeProduceBlock o => exact h.maybeProduceBlock ha.1 ha.2.1 ha.2.2
  | applyBlock header =>
    rw [Producer.step]
    dsimp only
    cases hs : n.head.next c header false with
    | error e =>
      rw [applyBlock, hs]
      exact ⟨h.signed, fun _ q hq => (by cases hq), h.disjoint⟩
    | ok s =>
      have hlowers : LowersNone n.watch (emitAcceptedBlock c settings providers s n.watch) := (ha s hs).lowersNone
      rw [applyBlock, hs]
      exact ⟨fun b hb => h.signed_le hlowers hb, fun _ q hq => (by cases hq), h.disjoint⟩
  | popBlock =>
    rw [Producer.step]
    dsimp only
    rw [popBlock]
    split
    · exact ⟨h.signed, fun _ q hq => (by cases hq), h.disjoint⟩
    · exact ⟨h.signed, fun _ q hq => (by cases hq), h.disjoint⟩

lemma Guarded.run (h : n.Guarded) {ops : List (SignatureProviders × Op)} (ha : AdmissibleRun c settings n ops) :
    (run c settings n ops).Guarded := by
  induction ops generalizing n with
  | nil => exact h
  | cons op ops ih => exact ih (h.step ha.1) ha.2

lemma guarded_of_started (head : BlockHeaderState) (older : List BlockHeaderState) :
    ({ head, older } : Producer).Guarded :=
  ⟨fun _ hb => (by cases hb), fun _ _ hp => (by cases hp), List.Pairwise.nil⟩

section

lemma disjoint_confirmedRange {a b : BlockHeaderState} (h : a.blockNum + b.header.confirmed < b.blockNum) :
    Disjoint (confirmedRange b) (confirmedRange a) := by
  rw [Finset.disjoint_left]
  intro i hb ha
  have hb := (Finset.mem_Icc.mp hb).1
  have ha := (Finset.mem_Icc.mp ha).2
  omega

theorem signed_ranges_disjoint (c : Crypto) (settings : Settings) (head : BlockHeaderState)
    (older : List BlockHeaderState) (ops : List (SignatureProviders × Op))
    (h : AdmissibleRun c settings { head, older } ops) :
    (run c settings { head, older } ops).signed.Pairwise fun b a =>
      b.header.producer = a.header.producer → Disjoint (confirmedRange b) (confirmedRange a) := by
  refine ((guarded_of_started head older).run h).disjoint.imp ?_
  intro b a hlt hsame
  exact disjoint_confirmedRange (hlt hsame)

def zeroKey : SignatureProviders := fun key => if key = 0 then some fun _ => .ok 0 else none

def epoch : Slot := 649251072

def produceAt (slot : Slot) : List Op := [.startBlock { now := toTimePoint (epoch + slot - 1) }, .maybeProduceBlock {}]

def stamped : Crypto := ⟨fun h => 2 ^ 32 * (h.timestamp + 1), fun _ => 0, fun _ _ => 0, fun _ _ => 0⟩

lemma zeroKey_faithful : Faithful stamped zeroKey := by
  intro key provider digest signature hp _
  rw [zeroKey] at hp
  split_ifs at hp with hkey
  exact hkey.symm

def trunk : List Forged :=
  [⟨1, 0, none⟩, ⟨2, 0, some ⟨1, [⟨1, 0⟩, ⟨2, 0⟩, ⟨3, 0⟩]⟩⟩, ⟨3, 0, none⟩,
   ⟨36, 0, some ⟨2, [⟨1, 0⟩, ⟨2, 0⟩, ⟨3, 0⟩, ⟨4, 0⟩]⟩⟩, ⟨48, 1, none⟩, ⟨60, 2, none⟩, ⟨72, 2, none⟩, ⟨84, 2, none⟩]

def received (blocks : List Forged) : List Op :=
  match forgeChain stamped (genesis stamped 0 0 0) [] (blocks.map fun b => { b with slot := epoch + b.slot }) with
  | .ok chain => chain.reverse.map fun s => .applyBlock s.header
  | .error _ => []

def firstFork : List Op := received (trunk ++ [⟨96, 0, none⟩]) ++ produceAt 132 ++ produceAt 133

def extendedFork : List Op :=
  (received (trunk ++ [⟨96, 0, none⟩, ⟨132, 0, none⟩, ⟨133, 0, none⟩, ⟨144, 0, none⟩])).drop (trunk.length + 3)

def secondFork : List Op :=
  List.replicate 3 .popBlock ++
    (received (trunk ++ [⟨108, 0, none⟩, ⟨131, 0, none⟩, ⟨132, 0, none⟩, ⟨144, 0, none⟩])).drop trunk.length

def fourth : Settings := { producers := [4] }

def startedAtGenesis : Producer := { head := genesis stamped 0 0 0 }

def runFourth (ops : List Op) : Producer := run stamped fourth startedAtGenesis (ops.map fun op => (zeroKey, op))

instance (b : BlockHeaderState) (producer : AccountName) : Decidable (Installs b producer) :=
  inferInstanceAs (Decidable (_ ∧ _ ∧ _))

instance (w : Watch) (b : BlockHeaderState) : Decidable (KeepsWatermarks fourth w b) :=
  inferInstanceAs (Decidable (∀ producer ∈ fourth.producers, Installs b producer →
    ∀ m ∈ w.producerWatermarks.find? producer, m ≤ b.blockNum))

def admissibleCheck (n : Producer) : Op → Bool
  | .startBlock x => pendingSlot x.now n.head ≠ 0
  | .maybeProduceBlock o => o.commit.isNone && n.pending.all fun p => KeepsWatermarks fourth n.watch p
  | .applyBlock h => (n.head.next stamped h false).toOption.all fun s => KeepsWatermarks fourth n.watch s
  | .popBlock => true

def runCheck (n : Producer) : List Op → Bool
  | [] => true
  | op :: ops => admissibleCheck n op && runCheck (step stamped fourth n (zeroKey, op)) ops

lemma admissible_of_check {op : Op} (h : admissibleCheck n op = true) : Admissible stamped fourth n (zeroKey, op) := by
  cases op with
  | startBlock x =>
    have hslot : pendingSlot x.now n.head ≠ 0 := of_decide_eq_true h
    exact hslot
  | maybeProduceBlock o =>
    obtain ⟨hcommit, hpending⟩ := Bool.and_eq_true_iff.mp h
    refine ⟨zeroKey_faithful, Option.isNone_iff_eq_none.mp hcommit, fun p hp => ?_⟩
    rw [hp] at hpending
    exact of_decide_eq_true hpending
  | applyBlock header =>
    intro s hs
    rw [admissibleCheck, hs] at h
    exact of_decide_eq_true h
  | popBlock => trivial

lemma admissibleRun_of_check {ops : List Op} (h : runCheck n ops = true) :
    AdmissibleRun stamped fourth n (ops.map fun op => (zeroKey, op)) := by
  induction ops generalizing n with
  | nil => trivial
  | cons op ops ih =>
    obtain ⟨hop, hops⟩ := Bool.and_eq_true_iff.mp h
    exact ⟨admissible_of_check hop, ih hops⟩

theorem extendedFork_ranges_disjoint :
    (runFourth (firstFork ++ extendedFork ++ produceAt 180)).signed.map
      (fun b => (b.header.producer, b.blockNum, b.header.confirmed)) = [(4, 14, 1), (4, 12, 0), (4, 11, 0)] ∧
    (runFourth (firstFork ++ extendedFork ++ produceAt 180)).signed.Pairwise fun b a =>
      b.header.producer = a.header.producer → Disjoint (confirmedRange b) (confirmedRange a) :=
  ⟨by decide +kernel, signed_ranges_disjoint _ _ _ _ _ (admissibleRun_of_check (by decide +kernel))⟩

theorem lowered_watermark_confirms_twice :
    (runFourth firstFork).head.dposIrreversibleBlocknum = 6 ∧
    (runFourth (firstFork ++ secondFork)).head.dposIrreversibleBlocknum = 7 ∧
    ∃ b a older, (runFourth (firstFork ++ secondFork ++ produceAt 180)).signed = b :: a :: older ∧
      b.header.producer = a.header.producer ∧ confirmedRange b = {12, 13, 14} ∧ confirmedRange a = {12} := by
  have h : (runFourth firstFork).head.dposIrreversibleBlocknum = 6 ∧
      (runFourth (firstFork ++ secondFork)).head.dposIrreversibleBlocknum = 7 ∧
      (runFourth (firstFork ++ secondFork ++ produceAt 180)).signed.map
        (fun b => (b.header.producer, b.blockNum, b.header.confirmed)) = [(4, 14, 2), (4, 12, 0), (4, 11, 0)] := by
    decide +kernel
  obtain ⟨hfirst, hsecond, hsigned⟩ := h
  refine ⟨hfirst, hsecond, ?_⟩
  obtain ⟨b, l, heq, hb, hl⟩ := map_eq_cons_iff.mp hsigned
  obtain ⟨a, older, rfl, ha, -⟩ := map_eq_cons_iff.mp hl
  obtain ⟨hbp, hb⟩ := Prod.mk.inj hb
  obtain ⟨hbn, hbc⟩ := Prod.mk.inj hb
  obtain ⟨hap, ha⟩ := Prod.mk.inj ha
  obtain ⟨han, hac⟩ := Prod.mk.inj ha
  refine ⟨b, a, older, heq, hbp.trans hap.symm, ?_, ?_⟩
  · rw [confirmedRange, hbn, hbc]
    decide
  · rw [confirmedRange, han, hac]
    decide

end

end XosChain.Producers.Producer
