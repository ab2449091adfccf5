import Mathlib.Data.Finset.Card
import XosChain.Header.Irreversible

namespace XosChain.Header

open Lib FlatMap List Crypto Option

namespace BlockHeaderState

def Supports (l : List BlockHeaderState) (prod : AccountName) (b : ℕ) : Prop :=
  ∃ s ∈ l, s.header.producer = prod ∧ b ≤ s.blockNum ∧ s.blockNum ≤ b + s.header.confirmed

def Created (g : BlockHeaderState) (l : List BlockHeaderState) (b : ℕ) (q : BlockHeaderState) : Prop :=
  q ∈ l ++ [g] ∧ q.blockNum + 1 = b

structure Counted (g : BlockHeaderState) (l : List BlockHeaderState) (b count : ℕ) : Prop where
  bound : count < 2 ^ 8
  supported : ∃ q, ∃ S : Finset AccountName, Created g l b q ∧ (∀ prod ∈ S, Supports l prod b) ∧
    S.card + remaining count = requiredConfs q.activeSchedule

variable {l : List BlockHeaderState}

lemma Supports.cons {prod : AccountName} {b : ℕ} (h : Supports l prod b)
    (s : BlockHeaderState) : Supports (s :: l) prod b := by
  obtain ⟨x, hx, h⟩ := h
  exact ⟨x, mem_cons_of_mem s hx, h⟩

lemma Created.cons {g q : BlockHeaderState} {b : ℕ} (h : Created g l b q)
    (s : BlockHeaderState) : Created g (s :: l) b q :=
  ⟨mem_cons_of_mem s h.1, h.2⟩

lemma Counted.cons {g : BlockHeaderState} {b count : ℕ} (h : Counted g l b count)
    (s : BlockHeaderState) : Counted g (s :: l) b count := by
  obtain ⟨hb, q, S, hq, hS, hc⟩ := h
  exact ⟨hb, q, S, hq.cons s, fun prod hprod => (hS prod hprod).cons s, hc⟩

structure Admitted (p : BlockHeaderState) (h : SignedBlockHeader) : Prop where
  confirmed : ∀ last, p.producerToLastProduced.find? h.producer = some last → h.confirmed ≤ p.blockNum + 1
  producers : ∀ new, h.newProducers = some new → new.producers.length ≤ 383

def Remembered (s b : BlockHeaderState) : Prop :=
  (∃ last, s.producerToLastProduced.find? b.header.producer = some last ∧ b.blockNum ≤ last) ∨
  s.producerToLastProduced.find? b.header.producer = none ∧
    b.header.producer ∉ s.activeSchedule.producers.map ProducerKey.producerName ∧
    (s.pendingSchedule.producers ≠ [] → b.blockNum ≤ s.pendingScheduleLibNum)

structure Tracked (g : BlockHeaderState) (l : List BlockHeaderState) (s : BlockHeaderState) : Prop where
  ordered : Ordered s
  mem : s ∈ l ++ [g]
  numbers : ∀ b ∈ l ++ [g], b.blockNum ≤ s.blockNum
  distinct : ∀ a ∈ l ++ [g], ∀ b ∈ l ++ [g], a.blockNum = b.blockNum → a = b
  active : s.activeSchedule.producers.length ≤ 383
  pending : s.pendingSchedule.producers.length ≤ 383
  remembered : ∀ b ∈ l, Remembered s b
  counters : ∀ j count, s.confirmCount[j]? = some count →
    Counted g l (s.blockNum + 1 - s.confirmCount.length + j) count

section

variable {c : Crypto} {g p s : BlockHeaderState} {l : List BlockHeaderState} {h : SignedBlockHeader}

variable {j count : ℕ} {trust : Bool} {prod : AccountName} {b : BlockHeaderState}

lemma Tracked.window (hp : Tracked g l p) (hj : p.window[j]? = some count) :
    Counted g l (p.blockNum + 2 - p.window.length + j) count := by
  have hlen := hp.ordered.counters
  have hnew : Counted g l (p.blockNum + 1) (requiredConfs p.activeSchedule % 2 ^ 8) := by
    refine ⟨Nat.mod_lt _ (by decide), p, ∅, ⟨hp.mem, rfl⟩, by simp, ?_⟩
    rw [Finset.card_empty, zero_add, requiredConfs_remaining hp.active]
  rw [BlockHeaderState.window, growConfirmCount] at hj ⊢
  split_ifs at hj ⊢ with hw
  · rw [List.length_append, List.length_singleton]
    rcases lt_or_ge j p.confirmCount.length with hlt | hge
    · rw [List.getElem?_append_left hlt] at hj
      convert hp.counters j count hj using 1
      omega
    · obtain ⟨hjl, rfl⟩ := List.getElem?_eq_some_iff.mp hj
      rw [List.length_append, List.length_singleton] at hjl
      have he : j = p.confirmCount.length := by omega
      subst he
      rw [List.getElem_concat_length rfl]
      convert hnew using 1
      omega
  · have hpos : 0 < p.confirmCount.length := by
      simp only [Config.maximumTrackedDposConfirmations] at hw
      omega
    rw [List.length_append, List.length_singleton, List.length_tail]
    rcases lt_or_ge j p.confirmCount.tail.length with hlt | hge
    · rw [List.getElem?_append_left hlt, List.getElem?_tail] at hj
      convert hp.counters (j + 1) count hj using 1
      omega
    · obtain ⟨hjl, rfl⟩ := List.getElem?_eq_some_iff.mp hj
      rw [List.length_append, List.length_singleton] at hjl
      have he : j = p.confirmCount.tail.length := by omega
      subst he
      rw [List.getElem_concat_length rfl]
      convert hnew using 1
      rw [List.length_tail]
      omega

lemma Tracked.not_supports (hp : Tracked g l p) (ha : Admitted p h)
    (hn : p.next c h trust = .ok s) {b : ℕ} (hb : p.blockNum + 1 ≤ b + h.confirmed) : ¬ Supports l h.producer b := by
  rintro ⟨x, hx, hprod, hle, _⟩
  obtain ⟨hsched, _, hguard⟩ := next_extends hn
  rcases hp.remembered x hx with ⟨last, hl, hxl⟩ | ⟨_, hmem, _⟩
  · rw [hprod] at hl
    have hlt := hguard last hl
    have hc := ha.confirmed last hl
    rw [sub32_of_le hc] at hlt
    omega
  · refine hmem (mem_map.mpr ⟨_, getScheduledProducer_mem hp.ordered.producers h.timestamp, ?_⟩)
    exact hsched.trans hprod.symm

lemma Counted.confirm {b count : ℕ} (hc : Counted g l b count) (hn : ¬ Supports l h.producer b)
    (hs : Supports (s :: l) h.producer b) :
    ∃ q, ∃ S : Finset AccountName, Created g (s :: l) b q ∧ (∀ prod ∈ S, Supports (s :: l) prod b) ∧
      S.card + remaining count = requiredConfs q.activeSchedule + 1 := by
  obtain ⟨_, q, S, hq, hS, hcard⟩ := hc
  have hnot : h.producer ∉ S := fun hmem => hn (hS _ hmem)
  refine ⟨q, insert h.producer S, hq.cons s, ?_, ?_⟩
  · intro prod hprod
    rcases Finset.mem_insert.mp hprod with rfl | hprod
    · exact hs
    · exact (hS prod hprod).cons s
  · rw [Finset.card_insert_of_notMem hnot]
    omega

lemma Extends.supports (he : Extends p h.producer h s) {b : ℕ} (hb : b ≤ p.blockNum + 1)
    (hc : p.blockNum + 1 ≤ b + h.confirmed) : Supports (s :: l) h.producer b := by
  refine ⟨s, mem_cons_self, he.producer, ?_, ?_⟩
  · rw [he.blockNum]
    exact hb
  · rw [he.blockNum, he.confirmed]
    exact hc

lemma Tracked.window_length (hp : Tracked g l p) : p.window.length ≤ p.blockNum + 1 := by
  have hw := hp.ordered.counters
  have hl : p.window.length ≤ p.confirmCount.length + 1 := (growConfirmCount_length _ _).2
  omega

section

variable (hp : Tracked g l p) (ha : Admitted p h) (hn : p.next c h trust = .ok s)

include hp ha hn

lemma Tracked.confirm (hj : p.window[j]? = some count) (hr : p.window.length ≤ j + (h.confirmed + 1)) :
    ∃ q, ∃ S : Finset AccountName, Created g (s :: l) (p.blockNum + 2 - p.window.length + j) q ∧
      (∀ prod ∈ S, Supports (s :: l) prod (p.blockNum + 2 - p.window.length + j)) ∧
      S.card + remaining count = requiredConfs q.activeSchedule + 1 := by
  have hlen := hp.window_length
  have hlt := (List.getElem?_eq_some_iff.mp hj).1
  have hlow : p.blockNum + 1 ≤ p.blockNum + 2 - p.window.length + j + h.confirmed := by omega
  have hs := (next_extends hn).2.1.supports (l := l) (b := p.blockNum + 2 - p.window.length + j) (by omega) hlow
  exact (hp.window hj).confirm (hp.not_supports ha hn hlow) hs

lemma Tracked.counted_decrement (hj : p.window[j]? = some count) (hr : p.window.length ≤ j + (h.confirmed + 1))
    (hz : decrement count ≠ 0) :
    Counted g (s :: l) (p.blockNum + 2 - p.window.length + j) (decrement count) := by
  obtain ⟨q, S, hq, hS, hcard⟩ := hp.confirm ha hn hj hr
  refine ⟨decrement_lt count, q, S, hq, hS, ?_⟩
  have hrem := remaining_decrement (hp.window hj).bound hz
  omega

lemma Tracked.next_counters (hj : s.confirmCount[j]? = some count) :
    Counted g (s :: l) (s.blockNum + 1 - s.confirmCount.length + j) count := by
  have he := (next_extends hn).2.1
  have hlen := hp.window_length
  rw [he.confirmCount] at hj
  rw [he.blockNum, he.confirmCount]
  cases hk : (confirmLoop p.window p.window.length (h.confirmed + 1)).2 with
  | none =>
    rw [confirmLoop_none_getElem? hk] at hj
    rw [confirmLoop_none hk]
    obtain ⟨x, hx, rfl⟩ := map_eq_some_iff.mp hj
    have hlt := (List.getElem?_eq_some_iff.mp hx).1
    split_ifs with hr
    · refine hp.counted_decrement ha hn hx hr.1 (confirmLoop_ne_zero hx hlt hr.1 ?_)
      intro k hk'
      rw [hk] at hk'
      cases hk'
    · exact (hp.window hx).cons s
  | some k =>
    obtain ⟨hki, hkn, _, hget⟩ := confirmLoop_some_getElem? hk
    rw [hget] at hj
    rw [(confirmLoop_some hk).2]
    obtain ⟨x, hx, rfl⟩ := map_eq_some_iff.mp hj
    have hlt := (List.getElem?_eq_some_iff.mp hx).1
    rw [if_pos hlt]
    have hz : decrement x ≠ 0 := by
      refine confirmLoop_ne_zero (n := h.confirmed + 1) hx hlt (by omega) ?_
      intro k' hk'
      rw [hk] at hk'
      cases hk'
      omega
    convert hp.counted_decrement ha hn hx (by omega) hz using 1
    omega

lemma Tracked.next_proposed (hadv : s.dposProposedIrreversibleBlocknum ≠ p.dposProposedIrreversibleBlocknum) :
    ∃ q, ∃ S : Finset AccountName, Created g (s :: l) s.dposProposedIrreversibleBlocknum q ∧
      (∀ prod ∈ S, Supports (s :: l) prod s.dposProposedIrreversibleBlocknum) ∧
      S.card = requiredConfs q.activeSchedule := by
  have he := (next_extends hn).2.1
  have hlen := hp.window_length
  cases hk : (confirmLoop p.window p.window.length (h.confirmed + 1)).2 with
  | none =>
    rw [he.proposed, hk] at hadv
    exact absurd rfl hadv
  | some k =>
    obtain ⟨hki, hkn, hz, _⟩ := confirmLoop_some_getElem? hk
    have hx : p.window[k]? = some (p.window.getD k 0) := by
      rw [getD_eq_getElem?_getD, getElem?_eq_getElem hki, getD_some]
    obtain ⟨q, S, hq, hS, hcard⟩ := hp.confirm ha hn hx hkn
    have hb : s.dposProposedIrreversibleBlocknum = p.blockNum + 2 - p.window.length + k := by
      rw [he.proposed, hk, elim_some]
      omega
    rw [hb]
    rw [remaining_of_decrement (hp.window hx).bound hz] at hcard
    exact ⟨q, S, hq, hS, by omega⟩

end

lemma Extends.remembered_self (he : Extends p prod h s) : Remembered s s := by
  refine .inl ⟨p.blockNum + 1, ?_, he.blockNum.le⟩
  rcases he.schedule with hpr | hco
  · rw [hpr.lastProduced, he.producer, find?_set_self]
  · rw [hco.lastProduced, nextLastProduced, he.producer, find?_set_self]

lemma Remembered.continuation (hb : Remembered p b)
    (hle : b.blockNum ≤ p.blockNum) (hco : Continuation p prod h.newProducers s) : Remembered s b := by
  by_cases hprod : prod = b.header.producer
  · refine .inl ⟨p.blockNum + 1, ?_, by omega⟩
    rw [hco.lastProduced, nextLastProduced, hprod, find?_set_self]
  · have hfind : s.producerToLastProduced.find? b.header.producer = p.producerToLastProduced.find? b.header.producer := by
      rw [hco.lastProduced, nextLastProduced, find?_set_of_ne _ _ hprod]
    rw [Remembered, hfind, hco.active]
    refine hb.imp_right ?_
    rintro ⟨hnone, hmem, hpend⟩
    refine ⟨hnone, hmem, ?_⟩
    rcases hco.pending with ⟨hp, hl⟩ | ⟨_, hl⟩
    · rwa [hp, hl]
    · intro _
      omega

lemma Remembered.promotion (hb : Remembered p b)
    (hle : b.blockNum ≤ p.blockNum) (hpr : Promotion p prod s) : Remembered s b := by
  by_cases hprod : prod = b.header.producer
  · refine .inl ⟨p.blockNum + 1, ?_, by omega⟩
    rw [hpr.lastProduced, hprod, find?_set_self]
  · rw [Remembered, hpr.lastProduced, find?_set_of_ne _ _ hprod, find?_retain, nextLastProduced,
      find?_set_of_ne _ _ hprod, hpr.active]
    by_cases hmem : b.header.producer ∈ p.pendingSchedule.producers.map ProducerKey.producerName
    · rw [if_pos hmem]
      refine .inl ⟨_, rfl, ?_⟩
      rcases hb with ⟨last, hl, hbl⟩ | ⟨hnone, _, hpend⟩
      · rwa [hl, getD_some]
      · rw [hnone, getD_none]
        exact (hpend hpr.pending).trans hpr.confirmed
    · rw [if_neg hmem]
      exact .inr ⟨rfl, hmem, fun hne => absurd hpr.cleared hne⟩

lemma Tracked.next_remembered (hp : Tracked g l p) (he : Extends p prod h s) :
    ∀ b ∈ s :: l, Remembered s b := by
  intro b hb
  rcases mem_cons.mp hb with rfl | hb
  · exact he.remembered_self
  · rcases he.schedule with hpr | hco
    · exact (hp.remembered b hb).promotion (hp.numbers b (mem_append_left _ hb)) hpr
    · exact (hp.remembered b hb).continuation (hp.numbers b (mem_append_left _ hb)) hco

lemma Tracked.next_schedules (hp : Tracked g l p) (ha : Admitted p h) (he : Extends p prod h s) :
    s.activeSchedule.producers.length ≤ 383 ∧ s.pendingSchedule.producers.length ≤ 383 := by
  rcases he.schedule with hpr | hco
  · rw [hpr.active, hpr.cleared]
    exact ⟨hp.pending, Nat.zero_le _⟩
  · rw [hco.active]
    refine ⟨hp.active, ?_⟩
    rcases hco.pending with ⟨hpend, _⟩ | ⟨hnew, _⟩
    · rw [hpend]
      exact hp.pending
    · exact ha.producers _ hnew

lemma Tracked.next (hp : Tracked g l p) (ha : Admitted p h) (hn : p.next c h trust = .ok s) :
    Tracked g (s :: l) s := by
  have he := (next_extends hn).2.1
  have hnum := he.blockNum
  obtain ⟨hact, hpend⟩ := hp.next_schedules ha he
  refine
    { ordered := he.ordered hp.ordered
      mem := mem_cons_self
      numbers := ?_
      distinct := ?_
      active := hact
      pending := hpend
      remembered := hp.next_remembered he
      counters := fun j count hj => hp.next_counters ha hn hj }
  · intro b hb
    rcases mem_cons.mp hb with rfl | hb
    · exact le_rfl
    · have hle := hp.numbers b hb
      omega
  · intro a hma b hmb hab
    rcases mem_cons.mp hma with rfl | hla
    · rcases mem_cons.mp hmb with rfl | hlb
      · rfl
      · have hle := hp.numbers b hlb
        omega
    · rcases mem_cons.mp hmb with rfl | hlb
      · have hle := hp.numbers a hla
        omega
      · exact hp.distinct a hla b hlb hab

lemma genesis_tracked (c : Crypto) (key : PublicKey) (t : Slot) (chainId : Digest) :
    Tracked (genesis c key t chainId) [] (genesis c key t chainId) where
  ordered := genesis_ordered c key t chainId
  mem := mem_cons_self
  numbers := by
    intro b hb
    rw [mem_singleton.mp hb]
  distinct := by
    intro a ha b hb _
    rw [mem_singleton.mp ha, mem_singleton.mp hb]
  active := (by decide : 1 ≤ 383)
  pending := (by decide : 1 ≤ 383)
  remembered := by intro b hb; cases hb
  counters := by intro j count hj; cases hj

lemma Chain.tracked {key : PublicKey} {t : Slot} {chainId : Digest}
    (hl : Chain c Admitted (genesis c key t chainId) l) :
    Tracked (genesis c key t chainId) l (l.headD (genesis c key t chainId)) := by
  induction hl with
  | nil => exact genesis_tracked c key t chainId
  | cons _ ha hn ih => exact ih.next ha hn

theorem proposed_distinct_support {key : PublicKey} {t : Slot} {chainId : Digest}
    (hl : Chain c Admitted (genesis c key t chainId) (s :: l))
    (hadv : s.dposProposedIrreversibleBlocknum ≠
      (l.headD (genesis c key t chainId)).dposProposedIrreversibleBlocknum) :
    ∃ q, Created (genesis c key t chainId) (s :: l) s.dposProposedIrreversibleBlocknum q ∧
      (∀ q', Created (genesis c key t chainId) (s :: l) s.dposProposedIrreversibleBlocknum q' → q' = q) ∧
      ∃ S : Finset AccountName, q.activeSchedule.producers.length * 2 / 3 + 1 ≤ S.card ∧
        ∀ prod ∈ S, Supports (s :: l) prod s.dposProposedIrreversibleBlocknum := by
  have htr : Tracked _ (s :: l) s := hl.tracked
  cases hl with
  | cons hl ha hn =>
    obtain ⟨q, S, hq, hS, hcard⟩ := hl.tracked.next_proposed ha hn hadv
    refine ⟨q, hq, ?_, S, hcard.ge, hS⟩
    intro q' hq'
    exact htr.distinct q' hq'.1 q hq.1 (Nat.succ.inj (hq'.2.trans hq.2.symm))

def promotedFour : List Forged :=
  [⟨1, 0, none⟩, ⟨2, 0, some ⟨1, [⟨1, 0⟩, ⟨2, 0⟩, ⟨3, 0⟩, ⟨4, 0⟩]⟩⟩, ⟨3, 0, none⟩, ⟨48, 0, none⟩, ⟨60, 1, none⟩,
   ⟨72, 2, none⟩]

lemma forge_admitted {b : Forged} {p : BlockHeaderState} (hp : 1 ≤ p.blockNum) (hconf : b.confirmed ≤ 2)
    (hnew : ∀ new, b.newProducers = some new → new.producers.length ≤ 383) : Admitted p (p.forge b) where
  confirmed := by
    intro _ _
    change b.confirmed ≤ p.blockNum + 1
    omega
  producers := hnew

theorem promotedFour_support :
    ∃ s l, Chain zero Admitted (genesis zero 0 0 0) (s :: l) ∧ s.dposProposedIrreversibleBlocknum = 5 ∧
      (l.headD (genesis zero 0 0 0)).dposProposedIrreversibleBlocknum = 4 ∧
      ∃ q, Created (genesis zero 0 0 0) (s :: l) 5 q ∧
        (∀ q', Created (genesis zero 0 0 0) (s :: l) 5 q' → q' = q) ∧ q.activeSchedule.producers.length = 4 ∧
        ∃ S : Finset AccountName, 3 ≤ S.card ∧ ∀ prod ∈ S, Supports (s :: l) prod 5 := by
  have h : (do
      match ← forgeChain zero (genesis zero 0 0 0) [] promotedFour with
      | [] => pure false
      | s :: l => pure (decide (s.dposProposedIrreversibleBlocknum = 5 ∧
          (l.headD (genesis zero 0 0 0)).dposProposedIrreversibleBlocknum = 4 ∧
          ∀ q ∈ s :: l ++ [genesis zero 0 0 0], q.blockNum + 1 = 5 → q.activeSchedule.producers.length = 4)) :
        Result Bool) = .ok true := by
    decide +kernel
  obtain ⟨chain, hchain, h⟩ := bind_ok h
  cases chain with
  | nil => cases h
  | cons s l =>
    obtain ⟨h5, h4, hq4⟩ := of_decide_eq_true (Except.ok.inj h)
    have hshort : ∀ b ∈ promotedFour, b.confirmed ≤ 2 ∧
        ∀ new ∈ b.newProducers, new.producers.length ≤ 383 := by decide
    have hadm : Chain zero Admitted (genesis zero 0 0 0) (s :: l) :=
      forgeChain_chain .nil (fun b hb p hp => forge_admitted hp (hshort b hb).1 (hshort b hb).2) hchain
    have hsupport := proposed_distinct_support hadm (by omega)
    rw [h5] at hsupport
    obtain ⟨q, hq, hunique, S, hcard, hS⟩ := hsupport
    rw [hq4 q hq.1 hq.2] at hcard
    exact ⟨s, l, hadm, h5, h4, q, hq, hunique, hq4 q hq.1 hq.2, S, hcard, hS⟩

def wrappedGuard : List Forged :=
  [⟨1, 0, none⟩, ⟨2, 0, some ⟨1, [⟨1, 0⟩, ⟨2, 0⟩, ⟨3, 0⟩, ⟨4, 0⟩]⟩⟩, ⟨3, 0, none⟩,
   ⟨48, 0, none⟩, ⟨49, 7, none⟩, ⟨50, 8, none⟩]

theorem proposed_without_support :
    ∃ s l, Chain zero (fun _ _ => True) (genesis zero 0 0 0) (s :: l) ∧
      s.dposProposedIrreversibleBlocknum ≠ (l.headD (genesis zero 0 0 0)).dposProposedIrreversibleBlocknum ∧
      ¬ ∃ q, Created (genesis zero 0 0 0) (s :: l) s.dposProposedIrreversibleBlocknum q ∧
        ∃ S : Finset AccountName, q.activeSchedule.producers.length * 2 / 3 + 1 ≤ S.card ∧
          ∀ prod ∈ S, Supports (s :: l) prod s.dposProposedIrreversibleBlocknum := by
  have h : (do
      match ← forgeChain zero (genesis zero 0 0 0) [] wrappedGuard with
      | [] => pure false
      | s :: l => pure (decide (s.dposProposedIrreversibleBlocknum = 5 ∧
          (l.headD (genesis zero 0 0 0)).dposProposedIrreversibleBlocknum = 4 ∧
          (∀ q ∈ s :: l ++ [genesis zero 0 0 0], q.blockNum + 1 = 5 → q.activeSchedule.producers.length = 4) ∧
          ∀ x ∈ s :: l, 5 ≤ x.blockNum → x.header.producer = 1)) : Result Bool) = .ok true := by
    decide +kernel
  obtain ⟨chain, hchain, h⟩ := bind_ok h
  cases chain with
  | nil => cases h
  | cons s l =>
    obtain ⟨h5, h4, hq4, honly⟩ := of_decide_eq_true (Except.ok.inj h)
    refine ⟨s, l, forgeChain_unrestricted hchain, by omega, ?_⟩
    rw [h5]
    rintro ⟨q, ⟨hq, hb⟩, S, hcard, hS⟩
    have hsub : S ⊆ {1} := by
      intro prod hprod
      obtain ⟨x, hx, rfl, hle, _⟩ := hS prod hprod
      exact Finset.mem_singleton.mpr (honly x hx hle)
    have hone : S.card ≤ 1 := Finset.card_le_card hsub
    have hlen := hq4 q hq hb
    omega

end

end BlockHeaderState

end XosChain.Header
