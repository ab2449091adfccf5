import XosChain.Header.State

namespace XosChain.Header

open Lib

namespace BlockHeaderState

def nextImpliedIrb (p : BlockHeaderState) (producer : AccountName) : FlatMap AccountName ℕ :=
  p.producerToLastImpliedIrb.set producer p.dposProposedIrreversibleBlocknum

def nextLastProduced (p : BlockHeaderState) (producer : AccountName) : FlatMap AccountName ℕ :=
  p.producerToLastProduced.set producer (p.blockNum + 1)

def window (p : BlockHeaderState) : List ℕ :=
  growConfirmCount p.confirmCount (requiredConfs p.activeSchedule)

structure Template (p : BlockHeaderState) (prod : AccountName) (t : BlockHeaderState) : Prop where
  producer : t.header.producer = prod
  version : t.header.scheduleVersion = p.activeSchedule.version
  previous : t.header.previous = p.id
  blockNum : t.blockNum = p.blockNum + 1
  lastProduced : t.producerToLastProduced = p.nextLastProduced prod
  impliedIrb : t.producerToLastImpliedIrb = p.nextImpliedIrb prod
  irreversible : t.dposIrreversibleBlocknum = calcDposLastIrreversible (p.nextImpliedIrb prod)
  proposed : t.dposProposedIrreversibleBlocknum = p.dposProposedIrreversibleBlocknum
  bft : t.bftIrreversibleBlocknum = p.bftIrreversibleBlocknum
  active : t.activeSchedule = p.activeSchedule
  pending : t.pendingSchedule = p.pendingSchedule
  pendingLib : t.pendingScheduleLibNum = p.pendingScheduleLibNum
  confirmCount : t.confirmCount = p.window

structure Promotion (p : BlockHeaderState) (prod : AccountName) (s : BlockHeaderState) : Prop where
  pending : p.pendingSchedule.producers ≠ []
  confirmed : p.pendingScheduleLibNum ≤ s.dposIrreversibleBlocknum
  active : s.activeSchedule = p.pendingSchedule
  cleared : s.pendingSchedule.producers = []
  lastProduced : s.producerToLastProduced =
    (retain p.pendingSchedule.producers (p.nextLastProduced prod) s.dposIrreversibleBlocknum).set
      prod (p.blockNum + 1)
  impliedIrb : s.producerToLastImpliedIrb =
    retain p.pendingSchedule.producers (p.nextImpliedIrb prod) s.dposIrreversibleBlocknum

structure Continuation (p : BlockHeaderState) (prod : AccountName) (new : Option ProducerSchedule)
    (s : BlockHeaderState) : Prop where
  active : s.activeSchedule = p.activeSchedule
  lastProduced : s.producerToLastProduced = p.nextLastProduced prod
  impliedIrb : s.producerToLastImpliedIrb = p.nextImpliedIrb prod
  pending : s.pendingSchedule = p.pendingSchedule ∧ s.pendingScheduleLibNum = p.pendingScheduleLibNum ∨
    new = some s.pendingSchedule ∧ s.pendingScheduleLibNum = p.blockNum + 1

structure Extends (p : BlockHeaderState) (prod : AccountName) (h : SignedBlockHeader)
    (s : BlockHeaderState) : Prop where
  blockNum : s.blockNum = p.blockNum + 1
  producer : s.header.producer = prod
  confirmed : s.header.confirmed = h.confirmed
  previous : s.header.previous = p.id
  bft : s.bftIrreversibleBlocknum = p.bftIrreversibleBlocknum
  irreversible : s.dposIrreversibleBlocknum = calcDposLastIrreversible (p.nextImpliedIrb prod)
  confirmCount : s.confirmCount = (confirmLoop p.window p.window.length (h.confirmed + 1)).1
  proposed : s.dposProposedIrreversibleBlocknum =
    (confirmLoop p.window p.window.length (h.confirmed + 1)).2.elim p.dposProposedIrreversibleBlocknum
      (fun i => p.blockNum + 1 - (p.window.length - 1 - i))
  schedule : Promotion p prod s ∨ Continuation p prod h.newProducers s

variable {p : BlockHeaderState} {c : Crypto} {q r : BlockHeaderState} {new : Option ProducerSchedule}

lemma nextSlot_ok {wanted slot : Slot} (hs : wanted ≠ 0)
    (h : p.nextSlot wanted = .ok slot) : slot = wanted := by
  rw [nextSlot, if_pos hs] at h
  obtain ⟨_, h⟩ := eosAssert_ok h
  exact (Except.ok.inj h).symm

lemma generateNext_ok {p t : BlockHeaderState} {wanted : Slot}
    (h : p.generateNext c wanted = .ok t) :
    ∃ slot, p.nextSlot wanted = .ok slot ∧ Template p (p.getScheduledProducer slot).producerName t := by
  obtain ⟨slot, hslot, ht⟩ := bind_ok h
  cases ht
  refine ⟨slot, hslot, ?_⟩
  constructor <;> rfl

lemma checkDoubleConfirm_ok {h : SignedBlockHeader} {n : ℕ} {u : Unit}
    (hc : p.checkDoubleConfirm h n = .ok u) {last : ℕ}
    (hl : p.producerToLastProduced.find? h.producer = some last) : last < sub32 n h.confirmed := by
  simp only [checkDoubleConfirm, hl] at hc
  exact eosAssert_eq_ok.mp hc

structure SameCore (m r : BlockHeaderState) : Prop where
  blockNum : r.blockNum = m.blockNum
  producer : r.header.producer = m.header.producer
  confirmed : r.header.confirmed = m.header.confirmed
  previous : r.header.previous = m.header.previous
  bft : r.bftIrreversibleBlocknum = m.bftIrreversibleBlocknum
  irreversible : r.dposIrreversibleBlocknum = m.dposIrreversibleBlocknum
  confirmCount : r.confirmCount = m.confirmCount
  proposed : r.dposProposedIrreversibleBlocknum = m.dposProposedIrreversibleBlocknum

lemma SameCore.trans {a b d : BlockHeaderState} (h : SameCore a b) (h' : SameCore b d) : SameCore a d where
  blockNum := h'.blockNum.trans h.blockNum
  producer := h'.producer.trans h.producer
  confirmed := h'.confirmed.trans h.confirmed
  previous := h'.previous.trans h.previous
  bft := h'.bft.trans h.bft
  irreversible := h'.irreversible.trans h.irreversible
  confirmCount := h'.confirmCount.trans h.confirmCount
  proposed := h'.proposed.trans h.proposed

lemma maybePromotePending_core (m : BlockHeaderState) : SameCore m m.maybePromotePending := by
  by_cases hp : m.promotes = true
  · rw [maybePromotePending, if_pos hp]
    constructor <;> rfl
  · rw [maybePromotePending, if_neg hp]
    constructor <;> rfl

lemma fillHeader_core (c : Crypto) (r : BlockHeaderState) (h : SignedBlockHeader) :
    SameCore r (r.fillHeader c h) := by
  constructor <;> rfl

lemma applyNewProducers_ok {promoted : Bool}
    (h : q.applyNewProducers c promoted new = .ok r) :
    r = q ∧ new = none ∨ ∃ pending, new = some pending ∧ promoted = false ∧
      r = { q with
        header := { q.header with newProducers := some pending }
        pendingScheduleHash := c.scheduleDigest pending
        pendingSchedule := pending
        pendingScheduleLibNum := q.blockNum } := by
  cases new with
  | none => exact .inl ⟨(Except.ok.inj h).symm, rfl⟩
  | some pending =>
    obtain ⟨hp, h⟩ := eosAssert_ok h
    obtain ⟨_, h⟩ := eosAssert_ok h
    obtain ⟨_, h⟩ := eosAssert_ok h
    exact .inr ⟨pending, rfl, hp, (Except.ok.inj h).symm⟩

lemma applyNewProducers_core {promoted : Bool}
    (h : q.applyNewProducers c promoted new = .ok r) : SameCore q r := by
  obtain ⟨rfl, _⟩ | ⟨_, _, _, rfl⟩ := applyNewProducers_ok h
  · constructor <;> rfl
  · constructor <;> rfl

lemma applyNewProducers_promoted
    (h : q.applyNewProducers c true new = .ok r) : r = q := by
  obtain ⟨he, _⟩ | ⟨_, _, hf, _⟩ := applyNewProducers_ok h
  · exact he
  · cases hf

section

variable {c : Crypto} {p t s : BlockHeaderState} {prod : AccountName} {h : SignedBlockHeader}

lemma Template.promotion (ht : Template p prod t) (hp : (t.setConfirmed h.confirmed).promotes = true) :
    Promotion p prod ((t.setConfirmed h.confirmed).maybePromotePending.fillHeader c h) := by
  have hpr := of_decide_eq_true hp
  rw [maybePromotePending, if_pos hp]
  refine
    { pending := ht.pending ▸ hpr.1
      confirmed := ht.pendingLib ▸ hpr.2
      active := ht.pending
      cleared := rfl
      lastProduced := ?_
      impliedIrb := ?_ }
  · simp only [fillHeader, setConfirmed, ht.pending, ht.lastProduced, ht.producer, ht.blockNum]
  · simp only [fillHeader, setConfirmed, ht.pending, ht.impliedIrb]

lemma Template.continuation (ht : Template p prod t) {r : BlockHeaderState}
    (hp : (t.setConfirmed h.confirmed).promotes ≠ true)
    (hr : (t.setConfirmed h.confirmed).maybePromotePending.applyNewProducers c
      (t.setConfirmed h.confirmed).promotes h.newProducers = .ok r) :
    Continuation p prod h.newProducers (r.fillHeader c h) := by
  rw [maybePromotePending, if_neg hp] at hr
  obtain ⟨rfl, _⟩ | ⟨pending, hsome, _, rfl⟩ := applyNewProducers_ok hr
  · exact ⟨ht.active, ht.lastProduced, ht.impliedIrb, .inl ⟨ht.pending, ht.pendingLib⟩⟩
  · exact ⟨ht.active, ht.lastProduced, ht.impliedIrb, .inr ⟨hsome, ht.blockNum⟩⟩

lemma Template.extends (ht : Template p prod t) (hs : t.complete c h = .ok s) : Extends p prod h s := by
  obtain ⟨r, hr, hs⟩ := bind_ok hs
  cases hs
  have hcore : SameCore (t.setConfirmed h.confirmed) (r.fillHeader c h) :=
    ((maybePromotePending_core _).trans (applyNewProducers_core hr)).trans (fillHeader_core c r h)
  refine
    { blockNum := hcore.blockNum.trans ht.blockNum
      producer := hcore.producer.trans ht.producer
      confirmed := hcore.confirmed
      previous := hcore.previous.trans ht.previous
      bft := hcore.bft.trans ht.bft
      irreversible := hcore.irreversible.trans ht.irreversible
      confirmCount := hcore.confirmCount.trans ?_
      proposed := hcore.proposed.trans ?_
      schedule := ?_ }
  · simp only [setConfirmed, ht.confirmCount]
  · simp only [setConfirmed, ht.confirmCount, ht.proposed, ht.blockNum]
  · by_cases hp : (t.setConfirmed h.confirmed).promotes = true
    · rw [hp] at hr
      obtain rfl := applyNewProducers_promoted hr
      exact .inl (ht.promotion hp)
    · exact .inr (ht.continuation hp hr)

lemma next_extends {trust : Bool} (hn : p.next c h trust = .ok s) :
    (p.getScheduledProducer h.timestamp).producerName = h.producer ∧ Extends p h.producer h s ∧
    ∀ last, p.producerToLastProduced.find? h.producer = some last → last < sub32 (p.blockNum + 1) h.confirmed := by
  obtain ⟨hslot, hn⟩ := eosAssert_ok hn
  iterate 3 obtain ⟨_, hn⟩ := eosAssert_ok hn
  obtain ⟨t, ht, hn⟩ := bind_ok hn
  obtain ⟨hproducer, hn⟩ := eosAssert_ok hn
  obtain ⟨_, hn⟩ := eosAssert_ok hn
  obtain ⟨_, hguard, hn⟩ := bind_ok hn
  obtain ⟨r, hr, hn⟩ := bind_ok hn
  obtain ⟨_, hn⟩ := eosAssert_ok hn
  cases hn
  obtain ⟨slot, hs, ht⟩ := generateNext_ok ht
  obtain rfl := nextSlot_ok hslot hs
  have hsched := ht.producer.symm.trans hproducer
  rw [hsched] at ht
  refine ⟨hsched, ht.extends hr, ?_⟩
  intro last hl
  exact ht.blockNum ▸ checkDoubleConfirm_ok hguard hl

lemma produce_extends (hn : p.produce c h = .ok s) :
    ∃ slot, Extends p (p.getScheduledProducer slot).producerName h s := by
  obtain ⟨t, ht, hn⟩ := bind_ok hn
  obtain ⟨slot, _, ht⟩ := generateNext_ok ht
  exact ⟨slot, ht.extends hn⟩

end

inductive Chain (c : Crypto) (admits : BlockHeaderState → SignedBlockHeader → Prop) (g : BlockHeaderState) :
    List BlockHeaderState → Prop
  | nil : Chain c admits g []
  | cons {l : List BlockHeaderState} {s : BlockHeaderState} {h : SignedBlockHeader} {trust : Bool} :
      Chain c admits g l → admits (l.headD g) h → (l.headD g).next c h trust = .ok s → Chain c admits g (s :: l)

section

variable {g : BlockHeaderState} {l l' : List BlockHeaderState} {admits : BlockHeaderState → SignedBlockHeader → Prop}

lemma Chain.blockNum_le (hl : Chain c admits g l) : g.blockNum ≤ (l.headD g).blockNum := by
  induction hl with
  | nil => exact le_rfl
  | cons _ _ hs ih => exact ih.trans ((next_extends hs).2.1.blockNum.ge.trans' (Nat.le_succ _))

lemma forgeChain_chain {blocks : List Forged} (hl : Chain c admits g l)
    (hb : ∀ b ∈ blocks, ∀ p, g.blockNum ≤ p.blockNum → admits p (p.forge b)) (h : forgeChain c g l blocks = .ok l') :
    Chain c admits g l' := by
  induction blocks generalizing l with
  | nil =>
    cases h
    exact hl
  | cons b blocks ih =>
    obtain ⟨s, hs, h⟩ := bind_ok h
    refine ih (.cons hl (hb b List.mem_cons_self _ hl.blockNum_le) hs) ?_ h
    exact fun b hmem => hb b (List.mem_cons_of_mem _ hmem)

lemma forgeChain_unrestricted {blocks : List Forged} (h : forgeChain c g [] blocks = .ok l) :
    Chain c (fun _ _ => True) g l :=
  forgeChain_chain .nil (fun _ _ _ _ => trivial) h

end

end BlockHeaderState

end XosChain.Header
