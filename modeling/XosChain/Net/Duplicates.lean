import XosChain.Net.Sending
import XosChain.Net.TimeStamps

namespace XosChain.Net

open Function List End

variable {ids : Bool → Identity} {first : End → ℤ} {refused : End → Prop} {s : State} {e : End} {c : Peer}
  {msg : HandshakeMessage} {rest : List Message}

namespace Inv

section

variable {v : View}

lemma lose (h : Inv ids first refused s) (ho : (s.peer e).isOpen = false) (kept : ℕ) :
    Inv ids first refused (s.setWire e ((s.wire e).take kept)) := by
  apply h.shorten (take_sublist kept _)
  intro hr hfar
  obtain ⟨-, hw, -⟩ := (h.refusal e hr).2.2.2 hfar
  refine ⟨?_, ?_⟩
  · intro msg rest heq
    obtain ⟨l, hl⟩ := heq ▸ take_prefix kept (s.wire e)
    exact hw msg (rest ++ l) hl.symm
  · rw [ho]
    intro hf
    cases hf

lemma farewell (h : Inv ids first refused s) {reason : GoAwayReason} (hw : s.wire e.far = .goAway reason :: rest)
    (hc : c.isOpen = false) (ha : c.peerAddr = (s.peer e).peerAddr) :
    Inv ids first refused ((s.setWire e.far rest).setPeer e c) := by
  apply (h.close (e := e) hc ha).shorten (e := e.far)
  · change rest.Sublist (s.wire e.far)
    rw [hw]
    exact sublist_cons_self _ _
  · intro _ hopen
    simp [State.setPeer, hc] at hopen

lemma rest_silent (h : Inv ids first refused s) (hw : s.wire e.far = .handshake msg :: rest) (hz : s.sent e = 0) :
    ∀ msg', .handshake msg' ∉ rest := by
  intro msg' hm
  have hord := h.ordered e.far
  rw [hw] at hord
  have hg := (pairwise_cons.mp hord).1 _ hm rfl msg' rfl
  have hmem : Message.handshake msg' ∈ s.wire e.far := by
    rw [hw]
    exact mem_cons_of_mem _ hm
  obtain ⟨-, -, -, -, htwo⟩ := h.stamped e.far msg' hmem
  have hone := (h.answered e.far).2 (htwo hg)
  rw [far_far] at hone
  omega

def refusedAfter (refused : End → Prop) (s : State) (e : End) : End → Prop :=
  fun e' => refused e' ∨ e' = e ∧ e.opener = false ∧ s.sent e = 0

lemma decline (h : Inv ids first refused s) (reason : GoAwayReason) (hfar : 1 ≤ s.sent e.far)
    (hno : s.sent e = 0 → ∀ msg, .handshake msg ∉ s.wire e.far)
    (htold : reason = .duplicate → s.told e.beside = false ∧ s.told e.beside.far = false ∧
      (e.opener = false → s.sent e = 0) ∧ (e.opener = true → GaveUp first s e)) :
    Inv ids first (refusedAfter refused s e) (s.enqueue e (.goAway reason)) := by
  apply h.goAway
  · intro e' hr
    exact .inl hr
  · rintro e' (hr | ⟨rfl, hop, hz⟩)
    · exact .inl hr
    · exact .inr ⟨rfl, hop, hz, hfar, hno hz⟩
  · intro hr
    obtain ⟨hb, hbf, hacc, hop⟩ := htold hr
    exact ⟨hb, hbf, fun hf => .inr ⟨rfl, hf, hacc hf⟩, hop⟩

section

variable (h : Inv ids first refused s) (hmem : .handshake msg ∈ s.wire e.far) (ho : (s.peer e).isOpen = true)
  (hg : msg.generation = 1)

include h hmem ho hg

lemma connecting_of_first : (s.peer e).connecting = true := by
  by_contra hc
  exact (h.heard e ho (Bool.eq_false_of_not_eq_true hc)).2 msg hmem hg

lemma duplicate_found (ht : s.Timed) (hd : Identity.isDuplicate (s.peer e) (s.peer e.beside) msg = true) :
    s.told e.beside = false ∧ s.told e.beside.far = false ∧ (e.opener = false → s.sent e = 0) ∧
      (e.opener = true → GaveUp first s e) := by
  have hconn := h.connecting_of_first hmem ho hg
  obtain ⟨hname, hfar, -, htime, -⟩ := h.stamped e.far msg hmem
  obtain ⟨-, hsentTime, hacceptor⟩ := h.fresh e ho hconn
  rw [isDuplicate_iff (ht.peers e) (ht.peers e.beside) (ht.wires e.far _ hmem msg rfl), Peer.connected, Bool.and_eq_true,
    Bool.not_eq_true'] at hd
  obtain ⟨⟨hbo, hbc⟩, hpeer, hlt⟩ := hd
  cases hop : e.opener with
  | false =>
    refine ⟨?_, ?_, (fun _ => hacceptor hop), fun hf => nomatch hf⟩
    · apply Bool.eq_false_of_not_eq_true
      intro hb
      obtain ⟨-, -, hnot⟩ := h.toldOpener e.beside hb (by simp [hop])
      rw [beside_beside] at hnot
      exact hnot ⟨ho, hconn⟩
    · apply Bool.eq_false_of_not_eq_true
      intro hb
      obtain ⟨-, -, -, hfree⟩ := h.refusal _ (h.toldAcceptor e.beside.far hb (by simp [hop]))
      rw [far_far] at hfree
      have hc := (hfree hbo).1
      rw [hbc] at hc
      cases hc
  | true =>
    have hrecv : (s.peer e.beside).lastHandshakeRecv.p2pAddress ≠ "" := by
      intro hempty
      have haddr := h.address e.beside (by simp [hop])
      rw [Peer.peerName, if_neg (by simp [hempty]), if_neg (by simp [haddr]), hname] at hpeer
      exact Identity.name_ne_client _ hpeer.symm
    obtain ⟨hbs, hbf, hbt, hbr⟩ := h.received e.beside hbo hrecv
    have hbl := h.later e.beside hbo hbs
    have hse := (h.answered e.far).1 (by simp [hop]) hfar
    rw [far_far] at hse
    rw [htime hg, hsentTime hse] at hlt
    have hsum : first e.beside + first e.beside.far < first e + first e.far := by omega
    refine ⟨?_, ?_, (fun hf => nomatch hf), fun _ => ⟨⟨hse, hfar, hbs, hbf⟩, hsum, ?_⟩⟩
    · apply Bool.eq_false_of_not_eq_true
      intro hb
      exact hbr (h.toldAcceptor e.beside hb (by simp [hop]))
    · apply Bool.eq_false_of_not_eq_true
      intro hb
      obtain ⟨-, hother, -⟩ := h.toldOpener e.beside.far hb (by simp [hop])
      rw [far_beside, beside_beside, far_far, far_far] at hother
      omega
    · rintro ⟨-, hc⟩
      rw [hbc] at hc
      cases hc

end

lemma setPeer_self (s : State) (e : End) : s.setPeer e (s.peer e) = s := by
  simp [State.setPeer]

lemma send_accept (s : State) (e : End) (c : Peer) (v : View) (msg : HandshakeMessage) :
    ((s.setPeer e c).send ids e v).setPeer e (Identity.accept (((s.setPeer e c).send ids e v).peer e) msg) =
      ((s.tick e.node v.time).setPeer e (Identity.accept ((ids e.node).sendHandshake c v) msg)).enqueue e
        (.handshake ((ids e.node).hello c v)) := by
  simp [State.send, State.setPeer, State.enqueue, State.tick]

section

variable (h : Inv ids first refused s) (hw : s.wire e.far = .handshake msg :: rest) (ho : (s.peer e).isOpen = true)
  (ht : s.clock e.node < v.time) (hc : Heard (s.peer e) c)

include h hw ho ht hc

lemma hear_tick :
    Inv ids first refused (((s.setWire e.far rest).tick e.node v.time).setPeer e c) :=
  (h.hear hw ho hc).tick ht.le

lemma declined (htimed : s.Timed) {reason : GoAwayReason}
    (hr : reason = .duplicate → msg.generation = 1 ∧ Identity.isDuplicate (s.peer e) (s.peer e.beside) msg = true) :
    ∃ first' refused', Inv ids first' refused'
      ((((s.setWire e.far rest).tick e.node v.time).setPeer e c).enqueue e (.goAway reason)) := by
  have hmem := mem_of_head hw
  refine ⟨first, _, (h.hear_tick hw ho ht hc).decline reason (h.stamped e.far msg hmem).2.1 ?_ ?_⟩
  · intro hz msg' hm
    simp only [State.setPeer, State.tick, State.setWire, update_self] at hm
    exact h.rest_silent hw hz msg' hm
  · intro hdup
    obtain ⟨hg, hd⟩ := hr hdup
    obtain ⟨hb, hbf, hacc, hop⟩ := h.duplicate_found hmem ho hg htimed hd
    refine ⟨hb, hbf, hacc, ?_⟩
    simpa [GaveUp, State.setPeer, State.tick, State.setWire] using hop

lemma accepted (hs : 1 ≤ s.sent e) :
    Inv ids first refused (((s.setWire e.far rest).tick e.node v.time).setPeer e (Identity.accept c msg)) := by
  have hmem := mem_of_head hw
  obtain ⟨-, hfar, htime, -, -⟩ := h.stamped e.far msg hmem
  have hnot : ¬ refused e := fun hr => (h.refusal e hr).2.2.1 msg hmem
  have hpeer : (((s.setWire e.far rest).tick e.node v.time).setPeer e c).peer e = c := by simp [State.setPeer]
  have hacc := (h.hear_tick hw ho ht hc).accept (e := e) msg hs hfar htime hnot
  rw [hpeer] at hacc
  simpa [State.setPeer] using hacc

lemma replied (hz : s.sent e = 0) :
    ∃ first' refused', Inv ids first' refused'
      ((((s.setWire e.far rest).tick e.node v.time).setPeer e
        (Identity.accept ((ids e.node).sendHandshake c v) msg)).enqueue e (.handshake ((ids e.node).hello c v))) := by
  have hmem := mem_of_head hw
  obtain ⟨-, hfar, htime, -, -⟩ := h.stamped e.far msg hmem
  have hnot : ¬ refused e := fun hr => (h.refusal e hr).2.2.1 msg hmem
  have hpeer : ((s.setWire e.far rest).setPeer e c).peer e = c := by simp [State.setPeer]
  have hopen : (((s.setWire e.far rest).setPeer e c).peer e).isOpen = true := by rw [hpeer, hc.1, ho]
  have hconn : (((s.setWire e.far rest).setPeer e c).peer e).connecting = false := by rw [hpeer, hc.2.1]
  have hz' : ((s.setWire e.far rest).setPeer e c).sent e = 0 := hz
  have hsend := (h.hear hw ho hc).send (v := v) ht hopen (.inl hconn) (by rw [hz']; omega)
  have hsent : 1 ≤ (State.send ids ((s.setWire e.far rest).setPeer e c) e v).sent e := by
    rw [sent_send_self]
    omega
  have hsentFar : 1 ≤ (State.send ids ((s.setWire e.far rest).setPeer e c) e v).sent e.far :=
    le_trans hfar (sent_le_send ((s.setWire e.far rest).setPeer e c) e e.far v)
  have hacc := hsend.accept (e := e) msg hsent hsentFar ?_ hnot
  · rw [send_accept] at hacc
    exact ⟨_, _, hacc⟩
  · have hfar' : 1 ≤ ((s.setWire e.far rest).setPeer e c).sent e.far := hfar
    rw [firstAfter_of_sent hfar']
    exact htime

end

section

variable (h : Inv ids first refused s) (hw : s.wire e.far = .handshake msg :: rest) (ho : (s.peer e).isOpen = true)

include h hw ho

lemma handleFirst (htimed : s.Timed) (hg : msg.generation = 1) (ht : s.clock e.node < v.time) (hc : Heard (s.peer e) c) :
    ∃ first' refused', Inv ids first' refused'
      ((((s.setWire e.far rest).tick e.node v.time).setPeer e ((ids e.node).handleFirst c msg v).1).enqueueAll e
        ((ids e.node).handleFirst c msg v).2) := by
  have hmem := mem_of_head hw
  have hsent := (h.fresh e ho (h.connecting_of_first hmem ho hg)).1
  have hcount : c.sentHandshakeCount = BitVec.ofNat 16 (s.sent e) := by
    rw [hc.2.2.1]
    exact h.counted e ho
  have hversion : Heard (s.peer e) { c with protocolVersion := toProtocolVersion msg.networkVersion } := hc
  have hnode : Heard (s.peer e)
      { c with protocolVersion := toProtocolVersion msg.networkVersion, nodeId := msg.nodeId } := hc
  rw [Identity.handleFirst]
  dsimp only
  split_ifs with h1 h2 h3 h4 h5
  · refine h.declined hw ho ht hc htimed ?_
    rintro ⟨⟩
  · refine h.declined hw ho ht hversion htimed ?_
    rintro ⟨⟩
  · refine h.declined hw ho ht hnode htimed ?_
    rintro ⟨⟩
  · refine h.declined hw ho ht hnode htimed ?_
    rintro ⟨⟩
  · have hz : s.sent e = 0 := by
      by_contra hz
      have hone : s.sent e = 1 := by omega
      rw [hcount, hone] at h5
      cases h5
    exact h.replied hw ho ht hnode hz
  · have hs : 1 ≤ s.sent e := by
      by_contra hz
      have hzero : s.sent e = 0 := by omega
      rw [hcount, hzero] at h5
      exact h5 rfl
    exact ⟨first, refused, h.accepted hw ho ht hnode hs⟩

lemma handshake (htimed : s.Timed) (ht : s.clock e.node < v.time) :
    ∃ first' refused', Inv ids first' refused' ((s.setWire e.far rest).receive ids e v (.handshake msg)) := by
  have hmem := mem_of_head hw
  obtain ⟨-, hfar, -, -, htwo⟩ := h.stamped e.far msg hmem
  have hheard : Heard (s.peer e) { s.peer e with connecting := false } := ⟨rfl, rfl, rfl, rfl, rfl, rfl⟩
  simp only [State.receive, Identity.handleHandshake]
  split_ifs with hvalid hg hself hdup
  · have hpop : Inv ids first refused ((s.setWire e.far rest).tick e.node v.time) := (h.pop hw ho).tick ht.le
    have hdecline := hpop.decline (e := e) .fatalOther hfar ?_ (by rintro ⟨⟩)
    · have hsame : ((s.setWire e.far rest).tick e.node v.time).setPeer e ((s.setWire e.far rest).peer e) =
          (s.setWire e.far rest).tick e.node v.time := setPeer_self _ e
      rw [hsame]
      exact ⟨_, _, hdecline⟩
    · intro hz msg' hm
      simp only [State.tick, State.setWire, update_self] at hm
      exact h.rest_silent hw hz msg' hm
  · refine h.declined hw ho ht hheard htimed ?_
    rintro ⟨⟩
  · have hretry : Heard (s.peer e) { s.peer e with connecting := false, noRetry := .duplicate } := hheard
    exact h.declined hw ho ht hretry htimed (fun _ => ⟨hg, hdup.2⟩)
  · exact h.handleFirst hw ho htimed hg ht hheard
  · have hs := (h.answered e.far).2 (htwo hg)
    rw [far_far] at hs
    exact ⟨first, refused, h.accepted hw ho ht hheard hs⟩

end

end

lemma step (h : Inv ids first refused s) (htimed : s.Timed) {ev : Event} {s' : State} (hs : s.step ids ev = some s')
    (hn : ∀ e, s'.sent e ≤ 65536) : ∃ first' refused', Inv ids first' refused' s' := by
  cases ev with
  | connected e v =>
    simp only [State.step] at hs
    split_ifs at hs with hif
    cases hs
    obtain ⟨hop, ho, hconn, hcount, ht⟩ := hif
    have hz : s.sent e = 0 := by
      have hle := (h.fresh e ho hconn).1
      by_contra hz
      have hone : s.sent e = 1 := by omega
      rw [h.counted e ho, hone] at hcount
      cases hcount
    exact ⟨_, _, h.send ht ho (.inr ⟨hop, hz⟩) (by omega)⟩
  | sendHandshake e v =>
    simp only [State.step] at hs
    split_ifs at hs with hif
    cases hs
    obtain ⟨hc, ht⟩ := hif
    simp only [Peer.connected, Bool.and_eq_true, Bool.not_eq_true'] at hc
    have hbound := hn e
    rw [sent_send_self] at hbound
    exact ⟨_, _, h.send ht hc.1 (.inl hc.2) hbound⟩
  | deliver e v =>
    simp only [State.step] at hs
    cases hw : s.wire e.far with
    | nil => simp [hw] at hs
    | cons m rest =>
      simp only [hw] at hs
      split_ifs at hs with hif
      cases hs
      cases m with
      | handshake msg => exact h.handshake hw hif.1 htimed hif.2
      | goAway reason => exact ⟨first, refused, h.farewell hw rfl rfl⟩
  | close e =>
    cases hs
    exact ⟨first, refused, h.close rfl rfl⟩
  | lose e kept =>
    simp only [State.step] at hs
    split_ifs at hs with hif
    cases hs
    exact ⟨first, refused, h.lose hif kept⟩

end Inv

lemma Reachable.timed {N : ℕ} (h : Reachable ids Addable N s) : s.Timed := by
  induction h with
  | start peerAddr clock => exact .start peerAddr clock
  | step _ hs hr _ ih => exact ih.step hs hr

lemma Reachable.inv {N : ℕ} (h : Reachable ids Addable N s) (hN : N ≤ 65536) :
    ∃ first refused, Inv ids first refused s := by
  induction h with
  | start peerAddr clock => exact ⟨_, _, inv_start ids peerAddr clock⟩
  | step h hs _ hn ih =>
    obtain ⟨first, refused, hinv⟩ := ih
    exact hinv.step h.timed hs fun e => (hn e).trans hN

def Kept (s : State) (link : Bool) : Prop := s.told ⟨true, link⟩ = false ∧ s.told ⟨false, link⟩ = false

lemma Reachable.kept {N : ℕ} (h : Reachable ids Addable N s) (hN : N ≤ 65536) : Kept s true ∨ Kept s false := by
  obtain ⟨first, refused, hinv⟩ := h.inv hN
  by_contra hnot
  simp only [Kept, not_or, not_and_or, Bool.not_eq_false] at hnot
  obtain ⟨htrue | htrue, hfalse⟩ := hnot
  · obtain ⟨h1, h2⟩ := hinv.one _ htrue
    simp only [beside, far, Bool.not_true] at h1 h2
    rw [h1, h2] at hfalse
    simp at hfalse
  · obtain ⟨h1, h2⟩ := hinv.one _ htrue
    simp only [beside, far, Bool.not_true, Bool.not_false] at h1 h2
    rw [h1, h2] at hfalse
    simp at hfalse

end XosChain.Net
