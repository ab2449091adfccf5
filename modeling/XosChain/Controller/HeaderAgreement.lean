import XosChain.Controller.Production
import XosChain.Header.Step

namespace XosChain.Controller

open Lib Header Header.BlockHeaderState Crypto

variable {δ τ : Type} {c : Crypto} {x : Execution δ τ} {p s t : BlockHeaderState} {wanted slot : Slot} {n : ℕ} {d : δ}
  {r : BlockHeaderState}

def finalizedState (c : Crypto) (s : BlockHeaderState) (actionMroot transactionMroot : Digest) : BlockHeaderState :=
  let header := { s.header with actionMroot, transactionMroot }
  { s with header, id := header.toBlockHeader.id c }

def signedState (s : BlockHeaderState) (producerSignature : Signature) : BlockHeaderState :=
  { s with header := { s.header with producerSignature } }

def producedState (c : Crypto) (x : Execution δ τ) (p : BlockHeaderState) (wanted : Slot) (confirmBlockCount : ℕ) (d : δ)
    (actionMroot transactionMroot : Digest) (producerSignature : Signature) : Result BlockHeaderState := do
  let s ← startState c x p wanted confirmBlockCount d
  pure (signedState (finalizedState c s actionMroot transactionMroot) producerSignature)

lemma generateNext_congr {wanted' : Slot} (h : p.nextSlot wanted' = p.nextSlot wanted) :
    p.generateNext c wanted' = p.generateNext c wanted := by
  rw [generateNext, h, generateNext]

lemma generateNext_header (h : p.generateNext c wanted = .ok t) :
    ∃ slot, p.nextSlot wanted = .ok slot ∧ t.blockNum = p.blockNum + 1 ∧
      t.header = { timestamp := slot, previous := p.id, scheduleVersion := p.activeSchedule.version,
                   producer := (p.getScheduledProducer slot).producerName } := by
  obtain ⟨slot, hslot, h⟩ := bind_ok h
  cases h
  exact ⟨slot, hslot, rfl, rfl⟩

lemma maybePromotePending_header (s : BlockHeaderState) : s.maybePromotePending.header = s.header := by
  rw [maybePromotePending]
  split_ifs <;> rfl

lemma setNewProducers_header {schedule : ProducerSchedule} (h : s.setNewProducers c schedule = .ok t) :
    t.header = { s.header with newProducers := some schedule } := by
  obtain ⟨-, h⟩ := eosAssert_ok h
  obtain ⟨-, h⟩ := eosAssert_ok h
  cases h
  rfl

lemma startState_applies (h : startState c x p wanted n d = .ok s) :
    ∃ t, p.generateNext c wanted = .ok t ∧
      s.header = { t.header with confirmed := n, newProducers := s.header.newProducers } ∧
      (t.setConfirmed n).maybePromotePending.applyNewProducers c (t.setConfirmed n).promotes s.header.newProducers =
        .ok s := by
  obtain ⟨t, ht, h⟩ := bind_ok h
  refine ⟨t, ht, ?_⟩
  obtain ⟨slot, -, -, hheader⟩ := generateNext_header ht
  have hkept : (t.setConfirmed n).maybePromotePending.header = { t.header with confirmed := n } := by
    rw [maybePromotePending_header]
    rfl
  have hnone : (t.setConfirmed n).maybePromotePending.header.newProducers = none := by
    rw [hkept, hheader]
  have hsame : ∀ r : BlockHeaderState, pure (t.setConfirmed n).maybePromotePending = (.ok r : Result BlockHeaderState) →
      r.header = { t.header with confirmed := n, newProducers := r.header.newProducers } ∧
        (t.setConfirmed n).maybePromotePending.applyNewProducers c (t.setConfirmed n).promotes r.header.newProducers =
          .ok r := by
    intro r hr
    cases hr
    rw [hnone]
    refine ⟨?_, rfl⟩
    rw [hkept, hheader]
  dsimp only at h
  split_ifs at h with hroom
  · cases hp : x.proposed (t.setConfirmed n).maybePromotePending d with
    | none =>
      rw [hp] at h
      exact hsame s h
    | some schedule =>
      rw [hp] at h
      have hs := setNewProducers_header h
      refine ⟨by rw [hs, hkept], ?_⟩
      rw [hs]
      exact eosAssert_bind.mpr ⟨hroom.1, h⟩
  · exact hsame s h

lemma nextSlot_again (h : p.nextSlot wanted = .ok slot) :
    (slot ≠ 0 ∧ slot > p.header.timestamp) ↔ (wanted = 0 → p.header.timestamp + 1 < 2 ^ 32) := by
  rw [nextSlot] at h
  split_ifs at h with hw
  · obtain ⟨hlt, h⟩ := eosAssert_ok h
    cases h
    exact ⟨fun _ h0 => absurd h0 hw, fun _ => ⟨hw, hlt⟩⟩
  · cases h
    have hw : wanted = 0 := not_not.mp hw
    constructor
    · rintro ⟨-, hlt⟩ -
      have := Nat.mod_lt (p.header.timestamp + 1) (show 0 < 2 ^ 32 by decide)
      exact (Nat.succ_le_of_lt hlt).trans_lt this
    · intro h
      rw [Nat.mod_eq_of_lt (h hw)]
      exact ⟨Nat.succ_ne_zero _, Nat.lt_succ_self _⟩

lemma nextSlot_of_gt (h0 : slot ≠ 0) (hlt : slot > p.header.timestamp) : p.nextSlot slot = .ok slot := by
  rw [nextSlot, if_pos h0]
  exact eosAssert_bind.mpr ⟨hlt, rfl⟩

lemma next_later {h : SignedBlockHeader} (hs : p.next c h true = .ok t) :
    h.timestamp ≠ 0 ∧ h.timestamp > p.header.timestamp := by
  obtain ⟨h0, hs⟩ := eosAssert_ok hs
  obtain ⟨-, hs⟩ := eosAssert_ok hs
  obtain ⟨hlt, -⟩ := eosAssert_ok hs
  exact ⟨h0, hlt⟩

section

variable (actionMroot transactionMroot : Digest) (signature : Signature)
  (hheader : r.header = { t.header with confirmed := n, newProducers := r.header.newProducers })
  (happly : (t.setConfirmed n).maybePromotePending.applyNewProducers c (t.setConfirmed n).promotes
    r.header.newProducers = .ok r)

include hheader happly

lemma complete_signedState :
    t.complete c (signedState (finalizedState c r actionMroot transactionMroot) signature).header =
      .ok (signedState (finalizedState c r actionMroot transactionMroot) signature) := by
  have hn : (signedState (finalizedState c r actionMroot transactionMroot) signature).header.confirmed = n := by
    change r.header.confirmed = n
    rw [hheader]
  rw [complete, hn]
  exact result_bind.mpr ⟨r, happly, rfl⟩

lemma next_signedState (h0 : r.header.timestamp ≠ 0)
    (hlt : r.header.timestamp > p.header.timestamp) (ht : p.generateNext c r.header.timestamp = .ok t)
    (hconfirm : p.checkDoubleConfirm (signedState (finalizedState c r actionMroot transactionMroot) signature).header t.blockNum =
      .ok ()) :
    p.next c (signedState (finalizedState c r actionMroot transactionMroot) signature).header true =
      .ok (signedState (finalizedState c r actionMroot transactionMroot) signature) := by
  obtain ⟨slot, -, -, htemplate⟩ := generateNext_header ht
  have hextensions : r.header.headerExtensions.length = 0 := by
    rw [hheader, htemplate]
    rfl
  have hprevious : r.header.previous = p.id := by rw [hheader, htemplate]
  have hproducer : t.header.producer = r.header.producer := by rw [hheader]
  have hversion : t.header.scheduleVersion = r.header.scheduleVersion := by rw [hheader]
  have hcomplete := complete_signedState actionMroot transactionMroot signature hheader happly
  rw [next]
  refine eosAssert_bind.mpr ⟨h0, ?_⟩
  refine eosAssert_bind.mpr ⟨hextensions, ?_⟩
  refine eosAssert_bind.mpr ⟨hlt, ?_⟩
  refine eosAssert_bind.mpr ⟨hprevious, ?_⟩
  refine result_bind.mpr ⟨t, ht, ?_⟩
  refine eosAssert_bind.mpr ⟨hproducer, ?_⟩
  refine eosAssert_bind.mpr ⟨hversion, ?_⟩
  refine result_bind.mpr ⟨(), hconfirm, ?_⟩
  refine result_bind.mpr ⟨_, hcomplete, ?_⟩
  exact eosAssert_bind.mpr ⟨.inl rfl, rfl⟩

end

theorem produced_header_is_accepted (c : Crypto) (x : Execution δ τ) (p : BlockHeaderState) (wanted : Slot)
    (confirmBlockCount : ℕ) (d : δ) (actionMroot transactionMroot : Digest) (producerSignature : Signature)
    (s : BlockHeaderState)
    (h : producedState c x p wanted confirmBlockCount d actionMroot transactionMroot producerSignature = .ok s)
    (hconfirm : p.checkDoubleConfirm s.header s.blockNum = .ok ()) :
    p.next c s.header true = .ok s ↔ (wanted = 0 → p.header.timestamp + 1 < 2 ^ 32) := by
  obtain ⟨r, hr, h⟩ := bind_ok h
  cases h
  obtain ⟨t, ht, hheader, happly⟩ := startState_applies hr
  obtain ⟨slot, hslot, -, htemplate⟩ := generateNext_header ht
  obtain rfl : r.header.timestamp = slot := by rw [hheader, htemplate]
  have hnum : r.blockNum = t.blockNum := ((maybePromotePending_core _).trans (applyNewProducers_core happly)).blockNum
  have hlater := nextSlot_again hslot
  refine Iff.trans ?_ hlater
  constructor
  · intro hnext
    have := next_later hnext
    exact this
  · rintro ⟨h0, hlt⟩
    have hagain : p.generateNext c r.header.timestamp = .ok t := by
      rw [generateNext_congr ((nextSlot_of_gt h0 hlt).trans hslot.symm), ht]
    have hdouble : p.checkDoubleConfirm
        (signedState (finalizedState c r actionMroot transactionMroot) producerSignature).header t.blockNum = .ok () := by
      rw [← hnum]
      exact hconfirm
    exact next_signedState actionMroot transactionMroot producerSignature hheader happly h0 hlt hagain hdouble

def announcing : Execution (Option ProducerSchedule) Unit :=
  { start := fun _ d => d, proposed := fun _ d => d, execute := fun _ d => pure d, finish := fun _ d => pure d }

def settled (timestamp : Slot) : BlockHeaderState :=
  { blockNum := 5, header := { timestamp }, activeSchedule := ⟨0, [⟨1, 0⟩]⟩ }

theorem announced_header_is_accepted :
    ∃ s, producedState zero announcing (settled 7) 9 0 (some ⟨1, [⟨2, 0⟩]⟩) 3 4 0 = .ok s ∧
      s.pendingSchedule.version = 1 ∧ (settled 7).next zero s.header true = .ok s := by
  have h : (do
      let s ← producedState zero announcing (settled 7) 9 0 (some ⟨1, [⟨2, 0⟩]⟩) 3 4 0
      (settled 7).checkDoubleConfirm s.header s.blockNum
      pure s.pendingSchedule.version : Result ℕ) = .ok 1 := by
    decide +kernel
  obtain ⟨s, hs, h⟩ := bind_ok h
  obtain ⟨_, hconfirm, h⟩ := bind_ok h
  have hiff := produced_header_is_accepted zero announcing (settled 7) 9 0 (some ⟨1, [⟨2, 0⟩]⟩) 3 4 0 s hs hconfirm
  exact ⟨s, hs, Except.ok.inj h, hiff.mpr (fun h9 => absurd h9 (by decide))⟩

theorem last_slot_header_is_refused :
    ∃ s, producedState zero announcing (settled (2 ^ 32 - 1)) 0 0 none 3 4 0 = .ok s ∧
      (settled (2 ^ 32 - 1)).checkDoubleConfirm s.header s.blockNum = .ok () ∧
      ∀ t, (settled (2 ^ 32 - 1)).next zero s.header true ≠ .ok t := by
  have h : (do
      let s ← producedState zero announcing (settled (2 ^ 32 - 1)) 0 0 none 3 4 0
      (settled (2 ^ 32 - 1)).checkDoubleConfirm s.header s.blockNum
      pure s.header.timestamp : Result ℕ) = .ok 0 := by
    decide +kernel
  obtain ⟨s, hs, h⟩ := bind_ok h
  obtain ⟨_, hconfirm, h⟩ := bind_ok h
  refine ⟨s, hs, hconfirm, ?_⟩
  intro t ht
  exact (next_later ht).1 (Except.ok.inj h)

end XosChain.Controller
