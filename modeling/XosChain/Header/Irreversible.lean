import Mathlib.Logic.Relation
import XosChain.Header.ConfirmLoop
import XosChain.Header.Step

namespace XosChain.Header

open Lib Relation Config FlatMap List Crypto Option

namespace BlockHeaderState

inductive Child (c : Crypto) (p s : BlockHeaderState) : Prop
  | next (h : SignedBlockHeader) (trust : Bool) : p.next c h trust = .ok s → Child c p s
  | produce (h : SignedBlockHeader) : p.produce c h = .ok s → Child c p s

lemma Child.extends {c : Crypto} {p s : BlockHeaderState} (h : Child c p s) :
    ∃ slot header, Extends p (p.getScheduledProducer slot).producerName header s := by
  cases h with
  | next header trust h =>
    obtain ⟨hs, he, _⟩ := next_extends h
    exact ⟨header.timestamp, header, hs ▸ he⟩
  | produce header h =>
    obtain ⟨slot, he⟩ := produce_extends h
    exact ⟨slot, header, he⟩

lemma getScheduledProducer_mem {p : BlockHeaderState} (h : p.activeSchedule.producers ≠ []) (t : Slot) :
    p.getScheduledProducer t ∈ p.activeSchedule.producers := by
  have hn : 0 < p.activeSchedule.producers.length := length_pos_iff.mpr h
  have hi : t % (p.activeSchedule.producers.length * producerRepetitions) / producerRepetitions
      < p.activeSchedule.producers.length :=
    Nat.div_lt_of_lt_mul (mul_comm _ producerRepetitions ▸ Nat.mod_lt _ (by simp [producerRepetitions, hn]))
  rw [getScheduledProducer, getD_eq_getElem?_getD, getElem?_eq_getElem hi]
  exact getElem_mem hi

lemma find?_retain (producers : List ProducerKey) (m : FlatMap AccountName ℕ) (lib : ℕ) (k : AccountName) :
    (retain producers m lib).find? k =
      if k ∈ producers.map ProducerKey.producerName then some ((m.find? k).getD lib) else none := by
  suffices h : ∀ acc : FlatMap AccountName ℕ,
      (producers.foldl (fun acc p => acc.set p.producerName ((m.find? p.producerName).getD lib)) acc).find? k =
        if k ∈ producers.map ProducerKey.producerName then some ((m.find? k).getD lib) else acc.find? k from
    h empty
  induction producers with
  | nil => simp
  | cons a l ih =>
    intro acc
    rw [foldl_cons, ih]
    by_cases hk : a.producerName = k
    · simp [hk]
    · simp [find?_set_of_ne _ _ hk, Ne.symm hk]

lemma calcDposLastIrreversible_le {irb : FlatMap AccountName ℕ} {b : ℕ}
    (h : ∀ k v, irb.find? k = some v → v ≤ b) : calcDposLastIrreversible irb ≤ b := by
  rw [calcDposLastIrreversible]
  cases he : orderStatistic ((irb.size - 1) / 3) irb.values with
  | none => exact Nat.zero_le b
  | some a =>
    obtain ⟨⟨k, v⟩, hm, rfl⟩ := mem_map.mp (orderStatistic_mem he)
    exact h k v ((irb.find?_eq_some_iff k v).mpr hm)

structure Ordered (s : BlockHeaderState) : Prop where
  producers : s.activeSchedule.producers ≠ []
  impliedIrb : ∀ k v, s.producerToLastImpliedIrb.find? k = some v → v ≤ s.dposProposedIrreversibleBlocknum
  irreversible : s.dposIrreversibleBlocknum ≤ s.dposProposedIrreversibleBlocknum
  counters : s.dposProposedIrreversibleBlocknum + s.confirmCount.length ≤ s.blockNum
  lastProduced : ∀ k v, s.producerToLastProduced.find? k = some v → v ≤ s.blockNum

section

variable {c : Crypto} {p s : BlockHeaderState} {prod : AccountName} {h : SignedBlockHeader}

variable {k : AccountName} {v : ℕ}

lemma Ordered.nextImpliedIrb (hp : Ordered p)
    (hv : (p.nextImpliedIrb prod).find? k = some v) : v ≤ p.dposProposedIrreversibleBlocknum := by
  exact forall_set hp.impliedIrb le_rfl k v hv

lemma Ordered.nextLastProduced (hp : Ordered p)
    (hv : (p.nextLastProduced prod).find? k = some v) : v ≤ p.blockNum + 1 := by
  exact forall_set (fun k v hv => (hp.lastProduced k v hv).trans (Nat.le_succ _)) le_rfl k v hv

section

variable (hp : Ordered p) (he : Extends p prod h s)

include hp he

lemma Extends.proposed_le :
    p.dposProposedIrreversibleBlocknum ≤ s.dposProposedIrreversibleBlocknum ∧
    s.dposProposedIrreversibleBlocknum + s.confirmCount.length ≤ s.blockNum := by
  have hw := hp.counters
  obtain ⟨hpos, hle⟩ : 0 < p.window.length ∧ p.window.length ≤ p.confirmCount.length + 1 :=
    growConfirmCount_length _ _
  rw [he.proposed, he.confirmCount, he.blockNum]
  cases hl : (confirmLoop p.window p.window.length (h.confirmed + 1)).2 with
  | none =>
    rw [confirmLoop_none hl, elim_none]
    omega
  | some i =>
    obtain ⟨hi, hlen⟩ := confirmLoop_some hl
    rw [hlen, elim_some]
    omega

lemma Extends.irreversible_le :
    s.dposIrreversibleBlocknum ≤ p.dposProposedIrreversibleBlocknum := by
  rw [he.irreversible]
  exact calcDposLastIrreversible_le (fun k v => hp.nextImpliedIrb)

lemma Promotion.impliedIrb_le (hpr : Promotion p prod s) (hv : s.producerToLastImpliedIrb.find? k = some v) :
    v ≤ p.dposProposedIrreversibleBlocknum := by
  rw [hpr.impliedIrb, find?_retain] at hv
  split_ifs at hv
  cases hv
  cases hm : (p.nextImpliedIrb prod).find? k with
  | none => exact he.irreversible_le hp
  | some w => exact hp.nextImpliedIrb hm

lemma Promotion.lastProduced_le (hpr : Promotion p prod s) (hv : s.producerToLastProduced.find? k = some v) :
    v ≤ p.blockNum + 1 := by
  rw [hpr.lastProduced, find?_set, find?_retain] at hv
  split_ifs at hv
  · exact (some.inj hv).ge
  · cases hv
    cases hm : (p.nextLastProduced prod).find? k with
    | none =>
      have hle := he.irreversible_le hp
      have hw := hp.counters
      rw [getD_none]
      omega
    | some w => exact hp.nextLastProduced hm

lemma Extends.ordered : Ordered s := by
  obtain ⟨hprop, hcount⟩ := he.proposed_le hp
  have hirr := (he.irreversible_le hp).trans hprop
  rcases he.schedule with hpr | hco
  · exact
      { producers := hpr.active ▸ hpr.pending
        impliedIrb := fun k v hv => (hpr.impliedIrb_le hp he hv).trans hprop
        irreversible := hirr
        counters := hcount
        lastProduced := fun k v hv => he.blockNum ▸ hpr.lastProduced_le hp he hv }
  · exact
      { producers := hco.active ▸ hp.producers
        impliedIrb := fun k v hv => (hp.nextImpliedIrb (hco.impliedIrb ▸ hv)).trans hprop
        irreversible := hirr
        counters := hcount
        lastProduced := fun k v hv => he.blockNum ▸ hp.nextLastProduced (hco.lastProduced ▸ hv) }

end

lemma genesis_ordered (c : Crypto) (key : PublicKey) (t : Slot) (chainId : Digest) :
    Ordered (genesis c key t chainId) where
  producers := cons_ne_nil _ _
  impliedIrb := by intro k v hv; cases hv
  irreversible := le_rfl
  counters := Nat.zero_le _
  lastProduced := by intro k v hv; cases hv

lemma reachable_ordered {key : PublicKey} {t : Slot} {chainId : Digest}
    (h : ReflTransGen (Child c) (genesis c key t chainId) p) : Ordered p := by
  induction h with
  | refl => exact genesis_ordered c key t chainId
  | tail _ hc ih =>
    obtain ⟨_, _, he⟩ := hc.extends
    exact he.ordered ih

end

def others (p : BlockHeaderState) (prod : AccountName) : FlatMap AccountName ℕ :=
  p.producerToLastImpliedIrb.erase prod

def FewLaggards (p : BlockHeaderState) : Prop :=
  ∀ k ∈ p.activeSchedule.producers,
    below p.dposIrreversibleBlocknum (p.others k.producerName).values ≤ (p.others k.producerName).size / 3

instance (p : BlockHeaderState) : Decidable (FewLaggards p) :=
  inferInstanceAs (Decidable (∀ k ∈ p.activeSchedule.producers, _))

section

variable {c : Crypto} {p s : BlockHeaderState}

lemma below_nextImpliedIrb (hp : Ordered p) (prod : AccountName) :
    below p.dposIrreversibleBlocknum (p.nextImpliedIrb prod).values =
      below p.dposIrreversibleBlocknum (p.others prod).values := by
  have hn : ¬ p.dposProposedIrreversibleBlocknum < p.dposIrreversibleBlocknum := not_lt.mpr hp.irreversible
  rw [below, below, nextImpliedIrb, others, countP_values_set, decide_eq_false hn]
  rfl

lemma le_calcDposLastIrreversible_iff (hp : Ordered p) (prod : AccountName) :
    p.dposIrreversibleBlocknum ≤ calcDposLastIrreversible (p.nextImpliedIrb prod) ↔
      below p.dposIrreversibleBlocknum (p.others prod).values ≤ (p.others prod).size / 3 := by
  have hsize : (p.nextImpliedIrb prod).size = (p.others prod).size + 1 := size_set _ _ _
  have hlen : (p.others prod).size / 3 < (p.nextImpliedIrb prod).values.length := by
    rw [values, length_map, ← size, hsize]
    omega
  obtain ⟨a, ha⟩ := orderStatistic_isSome hlen
  rw [calcDposLastIrreversible, hsize, Nat.add_sub_cancel, ha, getD_some, le_orderStatistic_iff ha,
    below_nextImpliedIrb hp]

lemma exists_slot {k : ProducerKey} (hk : k ∈ p.activeSchedule.producers) :
    ∃ t, p.header.timestamp < t ∧ p.getScheduledProducer t = k := by
  obtain ⟨i, hi, hik⟩ := mem_iff_getElem.mp hk
  have hr : 0 < producerRepetitions := by decide
  set round := p.activeSchedule.producers.length * producerRepetitions with hround
  have hlt : i * producerRepetitions < round := Nat.mul_lt_mul_of_pos_right hi hr
  refine ⟨i * producerRepetitions + round * (p.header.timestamp / round + 1), ?_, ?_⟩
  · exact (Nat.lt_mul_div_succ _ (by omega)).trans_le (Nat.le_add_left _ _)
  · rw [getScheduledProducer, ← hround, Nat.add_mul_mod_self_left, Nat.mod_eq_of_lt hlt, Nat.mul_div_cancel _ hr,
      getD_eq_getElem?_getD, getElem?_eq_getElem hi]
    exact hik

lemma next_forge (hp : Ordered p) {slot : Slot} (hs : p.header.timestamp < slot) :
    ∃ s, p.next c (p.forge ⟨slot, 0, none⟩) true = .ok s := by
  have h0 : slot ≠ 0 := Nat.ne_zero_of_lt hs
  have hslot : p.nextSlot slot = .ok slot := by
    rw [nextSlot, if_pos h0, eosAssert, if_pos hs]
    rfl
  obtain ⟨t, ht⟩ : ∃ t, p.generateNext c slot = .ok t := by
    rw [generateNext, hslot]
    exact ⟨_, rfl⟩
  obtain ⟨slot', hs', htemp⟩ := generateNext_ok ht
  obtain rfl := Except.ok.inj (hslot.symm.trans hs')
  have hguard : p.checkDoubleConfirm (p.forge ⟨slot, 0, none⟩) t.blockNum = .ok () := by
    rw [checkDoubleConfirm]
    cases hl : p.producerToLastProduced.find? (p.forge ⟨slot, 0, none⟩).producer with
    | none => rfl
    | some last =>
      refine eosAssert_eq_ok.mpr ?_
      have hsub : sub32 (p.blockNum + 1) (p.forge ⟨slot, 0, none⟩).confirmed = p.blockNum + 1 :=
        sub32_of_le (Nat.zero_le _)
      rw [htemp.blockNum, hsub]
      exact Nat.lt_succ_of_le (hp.lastProduced _ _ hl)
  refine ⟨_, eosAssert_bind.mpr ⟨h0, eosAssert_bind.mpr ⟨rfl, eosAssert_bind.mpr ⟨hs, eosAssert_bind.mpr ⟨rfl,
    result_bind.mpr ⟨t, ht, eosAssert_bind.mpr ⟨htemp.producer, eosAssert_bind.mpr ⟨htemp.version,
      result_bind.mpr ⟨(), hguard, result_bind.mpr ⟨_, rfl, eosAssert_bind.mpr ⟨.inl rfl, rfl⟩⟩⟩⟩⟩⟩⟩⟩⟩⟩⟩

theorem child_irreversible_iff {key : PublicKey} {t : Slot} {chainId : Digest}
    (hp : ReflTransGen (Child c) (genesis c key t chainId) p) :
    (∀ s, Child c p s →
      p.dposIrreversibleBlocknum ≤ s.dposIrreversibleBlocknum ∧
      s.dposIrreversibleBlocknum ≤ s.dposProposedIrreversibleBlocknum ∧
      s.dposProposedIrreversibleBlocknum ≤ s.blockNum) ↔ FewLaggards p := by
  have ho := reachable_ordered hp
  constructor
  · intro h k hk
    obtain ⟨slot, hlt, hslot⟩ := exists_slot hk
    obtain ⟨s, hs⟩ := next_forge (c := c) ho hlt
    have he := (next_extends hs).2.1
    rw [← le_calcDposLastIrreversible_iff ho, ← hslot]
    exact he.irreversible ▸ (h s (.next _ _ hs)).1
  · intro h s hs
    obtain ⟨slot, header, he⟩ := hs.extends
    have hc := (he.ordered ho).counters
    refine ⟨?_, (he.ordered ho).irreversible, by omega⟩
    rw [he.irreversible, le_calcDposLastIrreversible_iff ho]
    exact h _ (getScheduledProducer_mem ho.producers slot)

lemma Chain.reachable {g : BlockHeaderState} {admits : BlockHeaderState → SignedBlockHeader → Prop}
    {l : List BlockHeaderState} (h : Chain c admits g l) : ReflTransGen (Child c) g (l.headD g) := by
  induction h with
  | nil => exact .refl
  | cons _ _ hn ih => exact ih.tail (.next _ _ hn)

def shrinkingSchedule : List Forged :=
  [⟨1, 0, none⟩, ⟨2, 0, some ⟨1, [⟨1, 0⟩, ⟨2, 0⟩, ⟨3, 0⟩, ⟨4, 0⟩]⟩⟩, ⟨3, 0, none⟩,
   ⟨48, 0, some ⟨2, [⟨4, 0⟩, ⟨1, 0⟩]⟩⟩, ⟨60, 1, none⟩, ⟨72, 2, none⟩, ⟨96, 2, none⟩, ⟨108, 2, none⟩, ⟨120, 2, none⟩]

theorem shrinkingSchedule_child_irreversible :
    (∃ p, ReflTransGen (Child zero) (genesis zero 0 0 0) p ∧ p.activeSchedule.version = 1 ∧
      p.dposIrreversibleBlocknum = 4 ∧ ∀ s, Child zero p s → 4 ≤ s.dposIrreversibleBlocknum ∧
        s.dposIrreversibleBlocknum ≤ s.dposProposedIrreversibleBlocknum ∧
        s.dposProposedIrreversibleBlocknum ≤ s.blockNum) ∧
    ∃ p, ReflTransGen (Child zero) (genesis zero 0 0 0) p ∧ p.activeSchedule.version = 2 ∧
      ¬ ∀ s, Child zero p s → p.dposIrreversibleBlocknum ≤ s.dposIrreversibleBlocknum ∧
        s.dposIrreversibleBlocknum ≤ s.dposProposedIrreversibleBlocknum ∧
        s.dposProposedIrreversibleBlocknum ≤ s.blockNum := by
  have h1 : (do
      let l ← forgeChain zero (genesis zero 0 0 0) [] (shrinkingSchedule.take 8)
      let p := l.headD (genesis zero 0 0 0)
      pure (p.activeSchedule.version, p.dposIrreversibleBlocknum, decide (FewLaggards p)) : Result (ℕ × ℕ × Bool)) =
      .ok (1, 4, true) := by
    decide +kernel
  have h2 : (do
      let l ← forgeChain zero (genesis zero 0 0 0) [] shrinkingSchedule
      let p := l.headD (genesis zero 0 0 0)
      pure (p.activeSchedule.version, decide (FewLaggards p)) : Result (ℕ × Bool)) = .ok (2, false) := by
    decide +kernel
  obtain ⟨l1, hl1, h1⟩ := bind_ok h1
  obtain ⟨l2, hl2, h2⟩ := bind_ok h2
  obtain ⟨hv1, h1⟩ := Prod.mk.inj (Except.ok.inj h1)
  obtain ⟨hirr, hfew⟩ := Prod.mk.inj h1
  obtain ⟨hv2, hmany⟩ := Prod.mk.inj (Except.ok.inj h2)
  have hr1 := (forgeChain_unrestricted hl1).reachable
  have hr2 := (forgeChain_unrestricted hl2).reachable
  refine ⟨⟨_, hr1, hv1, hirr, ?_⟩, _, hr2, hv2, ?_⟩
  · have hall := (child_irreversible_iff hr1).mpr (of_decide_eq_true hfew)
    rwa [hirr] at hall
  · exact fun hall => of_decide_eq_false hmany ((child_irreversible_iff hr2).mp hall)

theorem irreversible_regresses :
    ∃ p s, ReflTransGen (Child zero) (genesis zero 0 0 0) p ∧ Child zero p s ∧
      s.dposIrreversibleBlocknum < p.dposIrreversibleBlocknum := by
  have h : (do
      let l ← forgeChain zero (genesis zero 0 0 0) [] shrinkingSchedule
      let p := l.headD (genesis zero 0 0 0)
      let s ← p.next zero (p.forge ⟨132, 0, none⟩) false
      pure (p.dposIrreversibleBlocknum, s.dposIrreversibleBlocknum) : Result (ℕ × ℕ)) = .ok (5, 3) := by
    decide +kernel
  obtain ⟨l, hl, h⟩ := bind_ok h
  obtain ⟨s, hs, h⟩ := bind_ok h
  obtain ⟨hpi, hsi⟩ := Prod.mk.inj (Except.ok.inj h)
  exact ⟨_, s, (forgeChain_unrestricted hl).reachable, .next _ _ hs, by omega⟩

end

end BlockHeaderState

end XosChain.Header
