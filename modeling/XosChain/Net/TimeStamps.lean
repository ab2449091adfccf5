import XosChain.Net.Handshake

namespace XosChain.Net

open Function List

variable {ids : Bool → Identity} {s s' : State} {e : End} {c check : Peer} {msg : HandshakeMessage} {v : View}

lemma addable_zero : Addable 0 := ⟨by decide, by decide⟩

lemma tstampSum_eq {t t' : ℤ} (h : Addable t) (h' : Addable t') : Identity.tstampSum t t' = t + t' := by
  obtain ⟨h1, h2⟩ := h
  obtain ⟨h1', h2'⟩ := h'
  exact Int.bmod_eq_of_le_mul_two (by push_cast; omega) (by push_cast; omega)

structure Peer.Timed (c : Peer) : Prop where
  sent : Addable c.lastHandshakeSent.time
  received : Addable c.lastHandshakeRecv.time

def Message.Timed (m : Message) : Prop := ∀ msg, m = .handshake msg → Addable msg.time

structure State.Timed (s : State) : Prop where
  peers : ∀ e, (s.peer e).Timed
  wires : ∀ e, ∀ m ∈ s.wire e, m.Timed

lemma isDuplicate_iff (hc : c.Timed) (hcheck : check.Timed) (hm : Addable msg.time) :
    Identity.isDuplicate c check msg = true ↔ check.connected = true ∧ check.peerName = msg.p2pAddress ∧
      check.lastHandshakeSent.time + check.lastHandshakeRecv.time < msg.time + c.lastHandshakeSent.time := by
  rw [Identity.isDuplicate, tstampSum_eq hm hc.sent, tstampSum_eq hcheck.sent hcheck.received]
  simp [and_assoc]

namespace State.Timed

lemma start (peerAddr : Bool → String) (clock : Bool → ℤ) : (State.start peerAddr clock).Timed where
  peers _ := ⟨addable_zero, addable_zero⟩
  wires _ _ hm := by cases hm

lemma setPeer (h : s.Timed) (hc : c.Timed) : (s.setPeer e c).Timed := by
  refine ⟨fun e' => ?_, h.wires⟩
  by_cases he : e' = e
  · simpa [State.setPeer, he] using hc
  · simpa [State.setPeer, he] using h.peers e'

lemma setWire (h : s.Timed) {l : List Message} (hl : ∀ m ∈ l, m.Timed) : (s.setWire e l).Timed := by
  refine ⟨h.peers, fun e' => ?_⟩
  by_cases he : e' = e
  · simpa [State.setWire, he] using hl
  · simpa [State.setWire, he] using h.wires e'

lemma enqueue (h : s.Timed) {m : Message} (hm : m.Timed) : (s.enqueue e m).Timed := by
  refine ⟨h.peers, fun e' => ?_⟩
  by_cases he : e' = e
  · subst he
    intro m' hm'
    simp only [State.enqueue, update_self, mem_append, mem_singleton] at hm'
    rcases hm' with hm' | rfl
    · exact h.wires e' m' hm'
    · exact hm
  · simpa [State.enqueue, he] using h.wires e'

lemma enqueueAll (h : s.Timed) {ms : List Message} (hm : ∀ m ∈ ms, m.Timed) : (s.enqueueAll e ms).Timed := by
  induction ms generalizing s with
  | nil => exact h
  | cons m ms ih =>
    exact ih (h.enqueue (hm m mem_cons_self)) fun m' hm' => hm m' (mem_cons_of_mem _ hm')

lemma tick (h : s.Timed) (n : Bool) (t : ℤ) : (s.tick n t).Timed := ⟨h.peers, h.wires⟩

end State.Timed

lemma Identity.sendHandshake_timed {node : Identity} (hc : c.Timed) (hv : Addable v.time) :
    (node.sendHandshake c v).Timed := ⟨hv, hc.received⟩

lemma hello_timed {node : Identity} (hv : Addable v.time) : (Message.handshake (node.hello c v)).Timed := by
  rintro msg ⟨⟩
  exact hv

lemma goAway_timed (reason : GoAwayReason) : (Message.goAway reason).Timed := by
  rintro msg ⟨⟩

lemma forall_goAway_timed (reason : GoAwayReason) : ∀ m ∈ [Message.goAway reason], m.Timed := by
  intro m hm
  rw [mem_singleton.mp hm]
  exact goAway_timed reason

lemma handleFirst_timed (node : Identity) (hc : c.Timed) (hm : Addable msg.time) (hv : Addable v.time) :
    (node.handleFirst c msg v).1.Timed ∧ ∀ m ∈ (node.handleFirst c msg v).2, m.Timed := by
  rw [Identity.handleFirst]
  dsimp only
  split_ifs
  · exact ⟨hc, forall_goAway_timed _⟩
  · exact ⟨⟨hc.sent, hc.received⟩, forall_goAway_timed _⟩
  · exact ⟨⟨hc.sent, hc.received⟩, forall_goAway_timed _⟩
  · exact ⟨⟨hc.sent, hc.received⟩, forall_goAway_timed _⟩
  · refine ⟨⟨hv, hm⟩, fun m hmem => ?_⟩
    rw [mem_singleton.mp hmem]
    exact hello_timed hv
  · exact ⟨⟨hc.sent, hm⟩, fun _ h => by cases h⟩

lemma handleHandshake_timed (node : Identity) (check : Peer) (hc : c.Timed) (hm : Addable msg.time) (hv : Addable v.time) :
    (node.handleHandshake c check msg v).1.Timed ∧ ∀ m ∈ (node.handleHandshake c check msg v).2, m.Timed := by
  have hc' : Peer.Timed { c with connecting := false } := ⟨hc.sent, hc.received⟩
  rw [Identity.handleHandshake]
  dsimp only
  split_ifs
  · exact ⟨hc, forall_goAway_timed _⟩
  · exact ⟨hc', forall_goAway_timed _⟩
  · exact ⟨⟨hc.sent, hc.received⟩, forall_goAway_timed _⟩
  · exact handleFirst_timed node hc' hm hv
  · exact ⟨⟨hc.sent, hm⟩, fun _ h => by cases h⟩

namespace State.Timed

lemma send (h : s.Timed) (hv : Addable v.time) : (s.send ids e v).Timed :=
  ((h.tick e.node v.time).setPeer (Identity.sendHandshake_timed (h.peers e) hv)).enqueue (hello_timed hv)

lemma receive (h : s.Timed) {m : Message} (hm : m.Timed) (hv : Addable v.time) : (s.receive ids e v m).Timed := by
  cases m with
  | goAway reason => exact h.setPeer ⟨addable_zero, addable_zero⟩
  | handshake msg =>
    obtain ⟨hpeer, hms⟩ := handleHandshake_timed (ids e.node) (s.peer e.beside) (h.peers e) (hm msg rfl) hv
    exact ((h.tick e.node v.time).setPeer hpeer).enqueueAll hms

lemma step (h : s.Timed) {ev : Event} (hs : s.step ids ev = some s') (hr : ∀ t ∈ ev.reading, Addable t) : s'.Timed := by
  cases ev with
  | connected e v =>
    simp only [State.step] at hs
    split_ifs at hs
    cases hs
    exact h.send (hr v.time rfl)
  | sendHandshake e v =>
    simp only [State.step] at hs
    split_ifs at hs
    cases hs
    exact h.send (hr v.time rfl)
  | deliver e v =>
    simp only [State.step] at hs
    cases hw : s.wire e.far with
    | nil => simp [hw] at hs
    | cons m rest =>
      simp only [hw] at hs
      split_ifs at hs
      cases hs
      have hwire := h.wires e.far
      rw [hw] at hwire
      exact (h.setWire fun m' hm' => hwire m' (mem_cons_of_mem _ hm')).receive (hwire m mem_cons_self) (hr v.time rfl)
  | close e =>
    cases hs
    exact h.setPeer ⟨addable_zero, addable_zero⟩
  | lose e kept =>
    simp only [State.step] at hs
    split_ifs at hs
    cases hs
    exact h.setWire fun m hm => h.wires e m (take_subset _ _ hm)

end State.Timed

end XosChain.Net
