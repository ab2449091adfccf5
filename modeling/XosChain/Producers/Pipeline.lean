import XosChain.Producers.Proposal

namespace XosChain.Producers

open Lib Header Header.BlockHeaderState List Node Crypto Block

variable {c : Crypto} {b p s : Block} {older : List Block} {schedule : ProducerSchedule} {num : ℕ}

def Block.Proposes (b : Block) (schedule : ProducerSchedule) : Prop := b.gpo = ⟨some b.state.blockNum, schedule⟩

def Announces (a : Block) (older : List Block) (schedule : ProducerSchedule) : Prop :=
  a.state.header.newProducers = some schedule ∧
    ∃ q ∈ older, q.Proposes schedule ∧ q.state.blockNum < a.state.blockNum ∧
      q.state.blockNum ≤ a.state.dposIrreversibleBlocknum

def Announced (schedule : ProducerSchedule) (num : ℕ) : List Block → Prop
  | [] => False
  | a :: older => (a.state.blockNum = num ∧ Announces a older schedule) ∨ Announced schedule num older

structure Sound (b : Block) (older : List Block) : Prop where
  newest : ∀ q ∈ older, q.state.blockNum < b.state.blockNum
  active : b.state.activeSchedule.producers ≠ []
  version : b.state.activeSchedule.version < b.state.blockNum
  pending : b.state.pendingSchedule.producers ≠ [] → b.state.pendingSchedule = b.state.activeSchedule ∨
    b.state.pendingSchedule.version = (b.state.activeSchedule.version + 1) % 2 ^ 32 ∧
      Announced b.state.pendingSchedule b.state.pendingScheduleLibNum (b :: older)
  proposed : ∀ num ∈ b.gpo.proposedScheduleBlockNum,
    b.gpo.proposedSchedule.version = (b.current.version + 1) % 2 ^ 32 ∧
      ∃ q ∈ b :: older, q.Proposes b.gpo.proposedSchedule ∧ q.state.blockNum = num

structure Follows (b p : Block) (older : List Block) : Prop where
  blockNum : b.state.blockNum = p.state.blockNum + 1
  changed : b.state.activeSchedule ≠ p.state.activeSchedule →
    b.state.activeSchedule.version = p.state.activeSchedule.version + 1 ∧
      ∃ num ≤ b.state.dposIrreversibleBlocknum, Announced b.state.activeSchedule num (p :: older)

lemma Announced.exists_mem {l : List Block} (h : Announced schedule num l) :
    ∃ a ∈ l, ∃ q ∈ l, a.state.blockNum = num ∧ a.state.header.newProducers = some schedule ∧ q.Proposes schedule ∧
      q.state.blockNum < a.state.blockNum ∧ q.state.blockNum ≤ a.state.dposIrreversibleBlocknum := by
  induction l with
  | nil => exact h.elim
  | cons a older ih =>
    obtain ⟨hnum, hnew, q, hq, hprop, hlt, hle⟩ | h := h
    · exact ⟨a, mem_cons_self, q, mem_cons_of_mem a hq, hnum, hnew, hprop, hlt, hle⟩
    · obtain ⟨a', ha, q, hq, h⟩ := ih h
      exact ⟨a', mem_cons_of_mem a ha, q, mem_cons_of_mem a hq, h⟩

lemma current_of_empty (h : b.state.pendingSchedule.producers = []) : b.current = b.state.activeSchedule := by
  rw [current, if_pos (length_eq_zero_iff.mpr h)]

lemma current_of_pending (h : b.state.pendingSchedule.producers ≠ []) : b.current = b.state.pendingSchedule := by
  rw [current, if_neg (fun h0 => h (length_eq_zero_iff.mp h0))]

section

variable {t : BlockHeaderState} {producer : AccountName} {n : ℕ}

lemma promoteProposed_ok (hs : Sound p older) (ht : Template p.state producer t) :
    ∃ s, promoteProposed c (t.setConfirmed n).promotes ⟨(t.setConfirmed n).maybePromotePending, p.gpo⟩ = .ok s := by
  rw [promoteProposed]
  split_ifs with h
  · obtain ⟨⟨num, hnum, -⟩, hempty, hp⟩ := h
    rw [maybePromotePending, hp] at hempty ⊢
    have hempty : t.pendingSchedule.producers.length = 0 := hempty
    have hversion := (hs.proposed num hnum).1
    rw [current_of_empty (length_eq_zero_iff.mp (ht.pending ▸ hempty))] at hversion
    refine ⟨_, result_bind.mpr ⟨_, eosAssert_bind.mpr ⟨?_, eosAssert_bind.mpr ⟨hempty, rfl⟩⟩, rfl⟩⟩
    change p.gpo.proposedSchedule.version = (t.activeSchedule.version + 1) % 2 ^ 32
    rw [ht.active, hversion]
  · exact ⟨_, rfl⟩

inductive Stage (p s : Block) : Prop where
  | promoted (pending : p.state.pendingSchedule.producers ≠ [])
      (irreversible : p.state.pendingScheduleLibNum ≤ s.state.dposIrreversibleBlocknum)
      (active : s.state.activeSchedule = p.state.pendingSchedule) (room : s.state.pendingSchedule.producers = [])
      (gpo : s.gpo = p.gpo)
  | announced (irreversible : ∃ num ∈ p.gpo.proposedScheduleBlockNum, num ≤ s.state.dposIrreversibleBlocknum)
      (room : p.state.pendingSchedule.producers = []) (active : s.state.activeSchedule = p.state.activeSchedule)
      (pending : s.state.pendingSchedule = p.gpo.proposedSchedule)
      (libNum : s.state.pendingScheduleLibNum = s.state.blockNum)
      (header : s.state.header.newProducers = some p.gpo.proposedSchedule) (gpo : s.gpo = {})
  | kept (active : s.state.activeSchedule = p.state.activeSchedule)
      (pending : s.state.pendingSchedule = p.state.pendingSchedule)
      (libNum : s.state.pendingScheduleLibNum = p.state.pendingScheduleLibNum) (gpo : s.gpo = p.gpo)

lemma promoteProposed_stage (ht : Template p.state producer t)
    (h : promoteProposed c (t.setConfirmed n).promotes ⟨(t.setConfirmed n).maybePromotePending, p.gpo⟩ = .ok s) :
    s.state.blockNum = p.state.blockNum + 1 ∧ Stage p s := by
  rw [promoteProposed] at h
  split_ifs at h with hready
  · obtain ⟨hirreversible, hroom, hp⟩ := hready
    rw [maybePromotePending, hp] at h hroom hirreversible
    obtain ⟨r, hr, h⟩ := bind_ok h
    iterate 2 obtain ⟨-, hr⟩ := eosAssert_ok hr
    cases hr
    cases h
    refine ⟨ht.blockNum, .announced hirreversible ?_ ht.active rfl rfl rfl rfl⟩
    exact length_eq_zero_iff.mp (ht.pending ▸ hroom)
  · cases h
    refine ⟨(maybePromotePending_core _).blockNum.trans ht.blockNum, ?_⟩
    by_cases hp : (t.setConfirmed n).promotes = true
    · have hpending := of_decide_eq_true hp
      rw [maybePromotePending, if_pos hp]
      exact .promoted (ht.pending ▸ hpending.1) (ht.pendingLib ▸ hpending.2) ht.pending rfl rfl
    · rw [maybePromotePending, if_neg hp]
      exact .kept ht.active ht.pending ht.pendingLib rfl

end

section

section

variable (hs : Sound p older)

include hs

lemma Sound.pending_version (hbound : p.state.blockNum < 2 ^ 32) (hpending : p.state.pendingSchedule.producers ≠ [])
    (hne : p.state.pendingSchedule ≠ p.state.activeSchedule) :
    p.state.pendingSchedule.version = p.state.activeSchedule.version + 1 ∧
      Announced p.state.pendingSchedule p.state.pendingScheduleLibNum (p :: older) := by
  obtain heq | ⟨hversion, hannounced⟩ := hs.pending hpending
  · exact absurd heq hne
  · have hlt : p.state.activeSchedule.version + 1 < 2 ^ 32 := (Nat.succ_le_of_lt hs.version).trans_lt hbound
    exact ⟨hversion.trans (Nat.mod_eq_of_lt hlt), hannounced⟩

lemma Sound.follows (hbound : p.state.blockNum < 2 ^ 32) (hnum : s.state.blockNum = p.state.blockNum + 1)
    (hstage : Stage p s) : Follows s p older := by
  refine ⟨hnum, ?_⟩
  intro hne
  cases hstage with
  | promoted pending irreversible active room gpo =>
    rw [active] at hne ⊢
    obtain ⟨hversion, hannounced⟩ := hs.pending_version hbound pending hne
    exact ⟨hversion, _, irreversible, hannounced⟩
  | announced _ _ active => exact absurd active hne
  | kept active => exact absurd active hne

lemma Sound.newest_cons (hnum : s.state.blockNum = p.state.blockNum + 1) :
    ∀ q ∈ p :: older, q.state.blockNum < s.state.blockNum := by
  intro q hq
  obtain rfl | hq := mem_cons.mp hq
  · omega
  · have := hs.newest q hq
    omega

lemma Sound.proposed_cons (hgpo : s.gpo = p.gpo) (hversion : s.current.version = p.current.version) :
    ∀ num ∈ s.gpo.proposedScheduleBlockNum, s.gpo.proposedSchedule.version = (s.current.version + 1) % 2 ^ 32 ∧
      ∃ q ∈ s :: p :: older, q.Proposes s.gpo.proposedSchedule ∧ q.state.blockNum = num := by
  rw [hgpo, hversion]
  intro num hmem
  obtain ⟨hv, q, hq, h⟩ := hs.proposed num hmem
  exact ⟨hv, q, mem_cons_of_mem s hq, h⟩

lemma Sound.start (hbound : p.state.blockNum < 2 ^ 32) (hnum : s.state.blockNum = p.state.blockNum + 1)
    (hstage : Stage p s) : Sound s (p :: older) := by
  have hold := hs.version
  cases hstage with
  | promoted pending irreversible active room gpo =>
    refine ⟨hs.newest_cons hnum, active ▸ pending, ?_, fun h => absurd room h, hs.proposed_cons gpo ?_⟩
    · rw [active]
      by_cases heq : p.state.pendingSchedule = p.state.activeSchedule
      · rw [heq]
        omega
      · have := (hs.pending_version hbound pending heq).1
        omega
    · rw [current_of_empty room, active, current_of_pending pending]
  | announced irreversible room active pending libNum header gpo =>
    obtain ⟨num, hmem, hle⟩ := irreversible
    obtain ⟨hversion, q, hq, hproposes, rfl⟩ := hs.proposed num hmem
    refine ⟨hs.newest_cons hnum, active ▸ hs.active, by rw [active]; omega, ?_, ?_⟩
    · intro _
      rw [pending, libNum, active, hversion, current_of_empty room]
      refine .inr ⟨rfl, .inl ⟨rfl, header, q, hq, hproposes, hs.newest_cons hnum q hq, hle⟩⟩
    · rw [gpo]
      intro num hmem
      cases hmem
  | kept active pending libNum gpo =>
    refine ⟨hs.newest_cons hnum, active ▸ hs.active, by rw [active]; omega, ?_, hs.proposed_cons gpo ?_⟩
    · rw [pending, active, libNum]
      intro hpending
      exact (hs.pending hpending).imp_right (fun h => ⟨h.1, .inr h.2⟩)
    · rw [current, pending, active]
      rfl

end

lemma Sound.setProposedProducers (hs : Sound b (p :: older)) (hf : Follows b p older) (producers : List ProducerKey) :
    Sound (setProposedProducers p.state.blockNum producers b).2 (p :: older) ∧
      Follows (setProposedProducers p.state.blockNum producers b).2 p older := by
  rw [Producers.setProposedProducers]
  split_ifs
  · exact ⟨hs, hf⟩
  · exact ⟨hs, hf⟩
  · refine ⟨⟨hs.newest, hs.active, hs.version, hs.pending, ?_⟩, hf.blockNum, hf.changed⟩
    intro num hmem
    cases hmem
    refine ⟨rfl, _, mem_cons_self, ?_, hf.blockNum⟩
    rw [Proposes, hf.blockNum]

lemma Sound.updateHeader (hs : Sound b (p :: older)) (hf : Follows b p older) (id : BlockId) (header : SignedBlockHeader)
    (hnew : header.newProducers = b.state.header.newProducers) :
    Sound { b with state := { b.state with id, header } } (p :: older) ∧
      Follows { b with state := { b.state with id, header } } p older := by
  have hannounces : ∀ schedule, Announces b (p :: older) schedule →
      Announces { b with state := { b.state with id, header } } (p :: older) schedule := by
    intro schedule h
    exact ⟨hnew.trans h.1, h.2⟩
  refine ⟨⟨hs.newest, hs.active, hs.version, ?_, ?_⟩, hf.blockNum, hf.changed⟩
  · intro hpending
    refine (hs.pending hpending).imp_right ?_
    rintro ⟨hversion, hannounced⟩
    exact ⟨hversion, hannounced.imp_left (fun h => ⟨h.1, hannounces _ h.2⟩)⟩
  · intro num hmem
    obtain ⟨hversion, q, hq, hproposes, hnum⟩ := hs.proposed num hmem
    refine ⟨hversion, ?_⟩
    obtain rfl | hq := mem_cons.mp hq
    · exact ⟨_, mem_cons_self, hproposes, hnum⟩
    · exact ⟨q, mem_cons_of_mem _ hq, hproposes, hnum⟩

end

section

inductive Linked : List Block → Prop where
  | genesis {b : Block} (hs : Sound b []) : Linked [b]
  | extend {b p : Block} {older : List Block} (hl : Linked (p :: older)) (hs : Sound b (p :: older))
      (hf : Follows b p older) : Linked (b :: p :: older)

structure Node.Sound (n : Node) : Prop where
  linked : Linked n.blocks
  revision : n.revision = n.head.state.blockNum + n.pending.toList.length

variable {n n' : Node}

lemma Linked.sound (h : Linked (b :: older)) : Sound b older := by
  cases h with
  | genesis hs => exact hs
  | extend _ hs _ => exact hs

lemma Linked.mem_active {l : List Block} (h : Linked l) (hb : b ∈ l) : b.state.activeSchedule.producers ≠ [] := by
  induction h with
  | genesis hs =>
    obtain rfl := mem_singleton.mp hb
    exact hs.active
  | extend _ hs _ ih =>
    obtain rfl | hb := mem_cons.mp hb
    · exact hs.active
    · exact ih hb

lemma Linked.follows {l newer : List Block} (h : Linked l) (hl : l = newer ++ b :: p :: older) : Follows b p older := by
  induction newer generalizing l with
  | nil =>
    subst hl
    cases h with
    | extend _ _ hf => exact hf
  | cons a newer ih =>
    subst hl
    cases newer with
    | nil =>
      cases h with
      | extend hl _ _ => exact ih hl rfl
    | cons a' newer =>
      cases h with
      | extend hl _ _ => exact ih hl rfl

section

variable (h : n.Sound)

include h

lemma Node.Sound.head : Linked (n.head :: n.older) := by
  have hl := h.linked
  rw [blocks] at hl
  cases hp : n.pending with
  | none =>
    rw [hp] at hl
    exact hl
  | some b =>
    rw [hp] at hl
    cases hl with
    | extend hl _ _ => exact hl

lemma Node.Sound.pendingBlock {e : Thrown} (hb : pendingBlock n e = .ok b) :
    n.pending = some b ∧ Producers.Sound b (n.head :: n.older) ∧ Follows b n.head n.older := by
  have hl := h.linked
  rw [blocks] at hl
  rw [Producers.pendingBlock] at hb
  cases hp : n.pending with
  | none =>
    rw [hp] at hb
    cases hb
  | some b' =>
    rw [hp] at hb hl
    cases hb
    cases hl with
    | extend _ hs hf => exact ⟨rfl, hs, hf⟩

lemma Node.Sound.setPending (hp : n.pending = some p) (hs : Producers.Sound b (n.head :: n.older))
    (hf : Follows b n.head n.older) : ({ n with pending := some b } : Node).Sound := by
  refine ⟨.extend h.head hs hf, ?_⟩
  have := h.revision
  rw [hp] at this
  exact this

lemma Node.Sound.startBlock {wanted : Slot} {confirmed : ℕ} (hn : startBlock c n wanted confirmed = .ok n') :
    n'.Sound := by
  obtain ⟨hp, hn⟩ := eosAssert_ok hn
  obtain ⟨hrevision, hn⟩ := eosAssert_ok hn
  obtain ⟨s, hs, hn⟩ := bind_ok hn
  cases hn
  obtain ⟨t, ht, hs⟩ := bind_ok hs
  obtain ⟨slot, -, htemplate⟩ := generateNext_ok ht
  obtain ⟨hnum, hstage⟩ := promoteProposed_stage htemplate hs
  have hrev := h.revision
  rw [hp] at hrev
  have hrev : n.revision = n.head.state.blockNum := hrev
  have hbound : n.head.state.blockNum < 2 ^ 32 := by
    rw [← hrev, hrevision]
    exact Nat.mod_lt _ (by decide)
  have hsound := h.head.sound
  refine ⟨.extend h.head (hsound.start hbound hnum hstage) (hsound.follows hbound hnum hstage), ?_⟩
  rw [hrev]
  rfl

lemma Node.Sound.pushTransaction {requests : List Request} {failure : Option Thrown}
    (hn : pushTransaction n requests failure = .ok n') : n'.Sound := by
  obtain ⟨b, hb, hn⟩ := bind_ok hn
  obtain ⟨b', hb', hn⟩ := bind_ok hn
  obtain ⟨hp, hs, hf⟩ := h.pendingBlock hb
  have hstep : ∀ (b : Block) (r : Request) (b' : Block), Producers.Sound b (n.head :: n.older) ∧ Follows b n.head n.older →
      r.apply n.head.state.blockNum b = .ok b' →
      Producers.Sound b' (n.head :: n.older) ∧ Follows b' n.head n.older := by
    rintro b r b' ⟨hs, hf⟩ hr
    obtain ⟨-, -, hr⟩ := bind_ok hr
    cases hr
    exact hs.setProposedProducers hf r.producers
  obtain ⟨hs', hf'⟩ := foldlM_invariant hstep ⟨hs, hf⟩ hb'
  cases failure with
  | some e => cases hn
  | none =>
    cases hn
    exact h.setPending hp hs' hf'

lemma Node.Sound.commitBlock (hn : commitBlock n = .ok n') : n'.Sound := by
  obtain ⟨b, hb, hn⟩ := bind_ok hn
  cases hn
  obtain ⟨hp, hs, hf⟩ := h.pendingBlock hb
  refine ⟨.extend h.head hs hf, ?_⟩
  have hrev := h.revision
  rw [hp] at hrev
  exact hrev.trans hf.blockNum.symm

lemma Node.Sound.abortBlock : (abortBlock n).Sound := by
  rw [Producers.abortBlock]
  cases hp : n.pending with
  | none => exact h
  | some b =>
    refine ⟨h.head, ?_⟩
    have hrev := h.revision
    rw [hp] at hrev
    exact congrArg (· - 1) hrev

lemma Node.Sound.exec {op : Op} (hn : exec c n op = .ok n') : n'.Sound := by
  cases op with
  | startBlock wanted confirmed => exact h.startBlock hn
  | pushTransaction requests failure => exact h.pushTransaction hn
  | finalizeBlock actionMroot transactionMroot =>
    obtain ⟨b, hb, hn⟩ := bind_ok hn
    cases hn
    obtain ⟨hp, hs, hf⟩ := h.pendingBlock hb
    let sealed := Controller.finalizedState c b.state actionMroot transactionMroot
    obtain ⟨hs, hf⟩ := hs.updateHeader hf sealed.id sealed.header rfl
    exact h.setPending hp hs hf
  | signBlock producerSignature =>
    obtain ⟨b, hb, hn⟩ := bind_ok hn
    cases hn
    obtain ⟨hp, hs, hf⟩ := h.pendingBlock hb
    let signed := Controller.signedState b.state producerSignature
    obtain ⟨hs, hf⟩ := hs.updateHeader hf signed.id signed.header rfl
    exact h.setPending hp hs hf
  | commitBlock => exact h.commitBlock hn
  | abortBlock =>
    cases hn
    exact h.abortBlock

lemma Node.Sound.run (ops : List Op) : (run c n ops).Sound := by
  induction ops generalizing n with
  | nil => exact h
  | cons op ops ih =>
    apply ih
    rw [step]
    split
    · exact h.exec (by assumption)
    · exact h

end

lemma Node.genesis_sound (c : Crypto) (initialKey : PublicKey) (initialTimestamp : Slot) (chainId : Digest) :
    (genesis c initialKey initialTimestamp chainId).Sound := by
  refine ⟨.genesis ⟨?_, cons_ne_nil _ _, Nat.succ_pos _, fun _ => .inl rfl, ?_⟩, rfl⟩
  · intro q hq
    cases hq
  · intro num hnum
    cases hnum

theorem schedule_passes_both_stages (c : Crypto) (initialKey : PublicKey) (initialTimestamp : Slot) (chainId : Digest)
    (ops : List Op) :
    (∀ wanted confirmBlockCount template,
      (run c (genesis c initialKey initialTimestamp chainId) ops).head.state.generateNext c wanted = .ok template →
      ∃ s, promoteProposed c (template.setConfirmed confirmBlockCount).promotes
        ⟨(template.setConfirmed confirmBlockCount).maybePromotePending,
          (run c (genesis c initialKey initialTimestamp chainId) ops).head.gpo⟩ = .ok s) ∧
    (∀ b ∈ (run c (genesis c initialKey initialTimestamp chainId) ops).blocks,
      b.state.activeSchedule.producers ≠ []) ∧
    ∀ newer b p older,
      (run c (genesis c initialKey initialTimestamp chainId) ops).blocks = newer ++ b :: p :: older →
      b.state.activeSchedule ≠ p.state.activeSchedule →
      b.state.activeSchedule.version = p.state.activeSchedule.version + 1 ∧
      ∃ a ∈ p :: older, ∃ q ∈ p :: older, q.Proposes b.state.activeSchedule ∧
        a.state.header.newProducers = some b.state.activeSchedule ∧ q.state.blockNum < a.state.blockNum ∧
        q.state.blockNum ≤ a.state.dposIrreversibleBlocknum ∧
        a.state.blockNum ≤ b.state.dposIrreversibleBlocknum := by
  have h := (genesis_sound c initialKey initialTimestamp chainId).run (c := c) ops
  refine ⟨?_, fun b hb => h.linked.mem_active hb, ?_⟩
  · intro wanted confirmBlockCount template ht
    obtain ⟨slot, -, htemplate⟩ := generateNext_ok ht
    exact promoteProposed_ok h.head.sound htemplate
  · intro newer b p older hblocks hne
    obtain ⟨hversion, num, hle, hannounced⟩ := (h.linked.follows hblocks).changed hne
    obtain ⟨a, ha, q, hq, rfl, hnew, hproposes, hlt, hirreversible⟩ := hannounced.exists_mem
    exact ⟨hversion, a, ha, q, hq, hproposes, hnew, hlt, hirreversible, hle⟩

def oneProposal : List Op :=
  [.startBlock 1 0, .pushTransaction [⟨fun _ => true, fun _ => true, [⟨1, 0⟩]⟩] none, .finalizeBlock 0 0, .commitBlock,
   .startBlock 2 0, .finalizeBlock 0 0, .commitBlock, .startBlock 3 0]

theorem oneProposal_passes_both_stages :
    ∃ b p older, (run zero (genesis zero 0 0 0) oneProposal).blocks = b :: p :: older ∧
      b.state.activeSchedule = ⟨1, [⟨1, 0⟩]⟩ ∧
      ∃ a ∈ p :: older, ∃ q ∈ p :: older, q.Proposes ⟨1, [⟨1, 0⟩]⟩ ∧ a.state.blockNum ≤ b.state.dposIrreversibleBlocknum := by
  have hactive : (run zero (genesis zero 0 0 0) oneProposal).blocks.map
      (fun b => b.state.activeSchedule.version) = [1, 0, 0, 0] ∧
      (run zero (genesis zero 0 0 0) oneProposal).blocks.head?.map
        (fun b => b.state.activeSchedule) = some ⟨1, [⟨1, 0⟩]⟩ := by
    decide +kernel
  obtain ⟨hversions, hhead⟩ := hactive
  have hpass := (schedule_passes_both_stages zero 0 0 0 oneProposal).2.2
  obtain ⟨b, l, hblocks, -, hversions⟩ := map_eq_cons_iff.mp hversions
  obtain ⟨p, older, rfl, hp, -⟩ := map_eq_cons_iff.mp hversions
  rw [hblocks] at hhead hpass ⊢
  have hb1 : b.state.activeSchedule = ⟨1, [⟨1, 0⟩]⟩ := Option.some.inj hhead
  have hne : b.state.activeSchedule ≠ p.state.activeSchedule := by
    intro he
    rw [← he, hb1] at hp
    cases hp
  obtain ⟨-, a, ha, q, hq, hproposes, -, -, -, hle⟩ := hpass [] b p older rfl hne
  exact ⟨b, p, older, rfl, hb1, a, ha, q, hq, hb1 ▸ hproposes, hle⟩

end

end XosChain.Producers
