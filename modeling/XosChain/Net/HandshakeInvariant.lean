import XosChain.Net.Handshake

namespace XosChain.Net

open Function List End

variable {ids : Bool → Identity} {first : End → ℤ} {refused : End → Prop} {s : State} {e : End} {c : Peer}
  {msg : HandshakeMessage} {rest : List Message}

lemma Identity.name_ne_client (node : Identity) : node.name ≠ "connecting client" := by
  intro h
  have hmem : '-' ∈ node.name.toList := by simp [Identity.name]
  rw [h] at hmem
  revert hmem
  decide

def isHandshake : Message → Bool
  | .handshake _ => true
  | .goAway _ => false

structure Inv (ids : Bool → Identity) (first : End → ℤ) (refused : End → Prop) (s : State) : Prop where
  clocked : ∀ e, 1 ≤ s.sent e → first e ≤ s.clock e.node
  stamped : ∀ e msg, .handshake msg ∈ s.wire e → msg.p2pAddress = (ids e.node).name ∧ 1 ≤ s.sent e ∧
    first e ≤ msg.time ∧ (msg.generation = 1 → msg.time = first e) ∧ (msg.generation ≠ 1 → 2 ≤ s.sent e)
  ordered : ∀ e, (s.wire e).Pairwise fun m m' => isHandshake m = true → ∀ msg, m' = .handshake msg → msg.generation ≠ 1
  heard : ∀ e, (s.peer e).isOpen = true → (s.peer e).connecting = false →
    1 ≤ s.sent e.far ∧ ∀ msg, .handshake msg ∈ s.wire e.far → msg.generation ≠ 1
  counted : ∀ e, (s.peer e).isOpen = true → (s.peer e).sentHandshakeCount = BitVec.ofNat 16 (s.sent e)
  fresh : ∀ e, (s.peer e).isOpen = true → (s.peer e).connecting = true →
    s.sent e ≤ 1 ∧ (1 ≤ s.sent e → (s.peer e).lastHandshakeSent.time = first e) ∧ (e.opener = false → s.sent e = 0)
  later : ∀ e, (s.peer e).isOpen = true → 1 ≤ s.sent e → first e ≤ (s.peer e).lastHandshakeSent.time
  answered : ∀ e, (e.opener = false → 1 ≤ s.sent e → 1 ≤ s.sent e.far) ∧ (2 ≤ s.sent e → 1 ≤ s.sent e.far)
  address : ∀ e, e.opener = false → (s.peer e).peerAddr = ""
  received : ∀ e, (s.peer e).isOpen = true → (s.peer e).lastHandshakeRecv.p2pAddress ≠ "" →
    1 ≤ s.sent e ∧ 1 ≤ s.sent e.far ∧ first e.far ≤ (s.peer e).lastHandshakeRecv.time ∧ ¬ refused e
  refusal : ∀ e, refused e → e.opener = false ∧ 1 ≤ s.sent e.far ∧ (∀ msg, .handshake msg ∉ s.wire e.far) ∧
    ((s.peer e.far).isOpen = true → (s.peer e.far).connecting = true ∧ (∀ msg rest, s.wire e ≠ .handshake msg :: rest) ∧
      ((s.peer e).isOpen = true → s.wire e ≠ []))
  toldOpener : ∀ e, s.told e = true → e.opener = true →
    (1 ≤ s.sent e ∧ 1 ≤ s.sent e.far ∧ 1 ≤ s.sent e.beside ∧ 1 ≤ s.sent e.beside.far) ∧
      first e.beside + first e.beside.far < first e + first e.far ∧
      ¬ ((s.peer e.beside).isOpen = true ∧ (s.peer e.beside).connecting = true)
  toldAcceptor : ∀ e, s.told e = true → e.opener = false → refused e
  one : ∀ e, s.told e = true → s.told e.beside = false ∧ s.told e.beside.far = false

lemma inv_start (ids : Bool → Identity) (peerAddr : Bool → String) (clock : Bool → ℤ) :
    Inv ids (fun _ => 0) (fun _ => False) (.start peerAddr clock) where
  clocked := by simp [State.start]
  stamped := by simp [State.start]
  ordered := by simp [State.start]
  heard := by simp [State.start]
  counted := by simp [State.start]
  fresh := by simp [State.start]
  later := by simp [State.start]
  answered := by simp [State.start]
  address e he := by simp [State.start, he]
  received := by simp [State.start]
  refusal := by simp
  toldOpener := by simp [State.start]
  toldAcceptor := by simp [State.start]
  one := by simp [State.start]

namespace Inv

lemma tick (h : Inv ids first refused s) {n : Bool} {t : ℤ} (ht : s.clock n ≤ t) :
    Inv ids first refused (s.tick n t) := by
  refine { h with clocked := ?_ }
  intro e he
  have hc := h.clocked e he
  by_cases hn : e.node = n
  · subst hn
    simpa [State.tick] using hc.trans ht
  · simpa [State.tick, hn] using hc

lemma mem_of_head {m : Message} (hw : s.wire e = m :: rest) : m ∈ s.wire e := by
  rw [hw]
  exact mem_cons_self

lemma not_refused_far (h : Inv ids first refused s) (hw : s.wire e.far = .handshake msg :: rest)
    (ho : (s.peer e).isOpen = true) : ¬ refused e.far := by
  intro hr
  obtain ⟨-, -, -, hopen⟩ := h.refusal e.far hr
  rw [far_far] at hopen
  exact (hopen ho).2.1 msg rest hw

variable {l : List Message} {e e' : End} {reason : GoAwayReason}

lemma shorten (h : Inv ids first refused s) (hl : l.Sublist (s.wire e))
    (hr : refused e → (s.peer e.far).isOpen = true →
      (∀ msg rest, l ≠ .handshake msg :: rest) ∧ ((s.peer e).isOpen = true → l ≠ [])) :
    Inv ids first refused (s.setWire e l) := by
  have hself : (s.setWire e l).wire e = l := by simp [State.setWire]
  have hother : ∀ e', e' ≠ e → (s.setWire e l).wire e' = s.wire e' := by
    intro e' he
    simp [State.setWire, he]
  have hsub : ∀ e', ((s.setWire e l).wire e').Sublist (s.wire e') := by
    intro e'
    by_cases he : e' = e
    · subst he
      rw [hself]
      exact hl
    · rw [hother e' he]
  refine { h with stamped := ?_, ordered := ?_, heard := ?_, refusal := ?_ }
  · intro e' m hm
    exact h.stamped e' m ((hsub e').subset hm)
  · intro e'
    exact (h.ordered e').sublist (hsub e')
  · intro e' hopen hconn
    obtain ⟨hs, hg⟩ := h.heard e' hopen hconn
    exact ⟨hs, fun m hm => hg m ((hsub _).subset hm)⟩
  · intro e' href
    obtain ⟨hacc, hs, hno, hfar⟩ := h.refusal e' href
    refine ⟨hacc, hs, fun m hm => hno m ((hsub _).subset hm), fun hopen => ⟨(hfar hopen).1, ?_⟩⟩
    by_cases he : e' = e
    · subst he
      rw [hself]
      exact hr href hopen
    · rw [hother e' he]
      exact (hfar hopen).2

lemma pop (h : Inv ids first refused s) (hw : s.wire e.far = .handshake msg :: rest) (ho : (s.peer e).isOpen = true) :
    Inv ids first refused (s.setWire e.far rest) := by
  apply h.shorten
  · rw [hw]
    exact sublist_cons_self _ _
  · intro hr
    exact absurd hr (h.not_refused_far hw ho)

lemma setPeer_cases (s : State) (e : End) (c : Peer) (e' : End) :
    e' = e ∧ (s.setPeer e c).peer e' = c ∨ (s.setPeer e c).peer e' = s.peer e' := by
  by_cases he : e' = e
  · exact .inl ⟨he, by simp [State.setPeer, he]⟩
  · exact .inr (by simp [State.setPeer, he])

lemma setPeer (h : Inv ids first refused s)
    (heard : c.isOpen = true → c.connecting = false →
      1 ≤ s.sent e.far ∧ ∀ msg, .handshake msg ∈ s.wire e.far → msg.generation ≠ 1)
    (counted : c.isOpen = true → c.sentHandshakeCount = BitVec.ofNat 16 (s.sent e))
    (fresh : c.isOpen = true → c.connecting = true → (s.peer e).isOpen = true ∧ (s.peer e).connecting = true ∧
      c.lastHandshakeSent = (s.peer e).lastHandshakeSent)
    (later : c.isOpen = true → 1 ≤ s.sent e → first e ≤ c.lastHandshakeSent.time)
    (address : c.peerAddr = (s.peer e).peerAddr)
    (received : c.isOpen = true → c.lastHandshakeRecv.p2pAddress ≠ "" →
      1 ≤ s.sent e ∧ 1 ≤ s.sent e.far ∧ first e.far ≤ c.lastHandshakeRecv.time ∧ ¬ refused e)
    (far : refused e.far → c.isOpen = true → c.connecting = true)
    (still : c.isOpen = true → (s.peer e).isOpen = true) :
    Inv ids first refused (s.setPeer e c) := by
  have hself : (s.setPeer e c).peer e = c := by simp [State.setPeer]
  have hother : ∀ e', e' ≠ e → (s.setPeer e c).peer e' = s.peer e' := by
    intro e' he
    simp [State.setPeer, he]
  refine { h with
    heard := ?_, counted := ?_, fresh := ?_, later := ?_, address := ?_, received := ?_, refusal := ?_,
    toldOpener := ?_ }
  · intro e'
    obtain ⟨rfl, hp⟩ | hp := setPeer_cases s e c e' <;> rw [hp]
    · exact heard
    · exact h.heard e'
  · intro e'
    obtain ⟨rfl, hp⟩ | hp := setPeer_cases s e c e' <;> rw [hp]
    · exact counted
    · exact h.counted e'
  · intro e'
    obtain ⟨rfl, hp⟩ | hp := setPeer_cases s e c e' <;> rw [hp]
    · intro ho hc
      obtain ⟨ho', hc', hsent⟩ := fresh ho hc
      rw [hsent]
      exact h.fresh e' ho' hc'
    · exact h.fresh e'
  · intro e'
    obtain ⟨rfl, hp⟩ | hp := setPeer_cases s e c e' <;> rw [hp]
    · exact later
    · exact h.later e'
  · intro e'
    obtain ⟨rfl, hp⟩ | hp := setPeer_cases s e c e' <;> rw [hp]
    · exact fun hop => address.trans (h.address e' hop)
    · exact h.address e'
  · intro e'
    obtain ⟨rfl, hp⟩ | hp := setPeer_cases s e c e' <;> rw [hp]
    · exact received
    · exact h.received e'
  · intro e' hr
    obtain ⟨hacc, hs, hno, hopen⟩ := h.refusal e' hr
    refine ⟨hacc, hs, hno, ?_⟩
    by_cases he : e' = e
    · subst he
      rw [hself, hother e'.far (far_ne e')]
      intro ho
      obtain ⟨hc, hw, hne⟩ := hopen ho
      exact ⟨hc, hw, fun hc => hne (still hc)⟩
    · rw [hother e' he]
      by_cases hf : e'.far = e
      · subst hf
        rw [hself]
        intro ho
        rw [far_far] at far
        obtain ⟨-, hw, hne⟩ := hopen (still ho)
        exact ⟨far hr ho, hw, hne⟩
      · rw [hother e'.far hf]
        exact hopen
  · intro e' ht hop
    obtain ⟨hs, hlt, hb⟩ := h.toldOpener e' ht hop
    refine ⟨hs, hlt, ?_⟩
    by_cases he : e'.beside = e
    · subst he
      rw [hself]
      rintro ⟨ho, hc⟩
      obtain ⟨ho', hc', -⟩ := fresh ho hc
      exact hb ⟨ho', hc'⟩
    · rw [hother e'.beside he]
      exact hb

lemma close (h : Inv ids first refused s) (hc : c.isOpen = false) (ha : c.peerAddr = (s.peer e).peerAddr) :
    Inv ids first refused (s.setPeer e c) := by
  apply h.setPeer <;> simp [hc, ha]

def Heard (c c' : Peer) : Prop :=
  c'.isOpen = c.isOpen ∧ c'.connecting = false ∧ c'.sentHandshakeCount = c.sentHandshakeCount ∧
    c'.lastHandshakeSent = c.lastHandshakeSent ∧ c'.lastHandshakeRecv = c.lastHandshakeRecv ∧ c'.peerAddr = c.peerAddr

lemma hear (h : Inv ids first refused s) (hw : s.wire e.far = .handshake msg :: rest)
    (ho : (s.peer e).isOpen = true) (hc : Heard (s.peer e) c) :
    Inv ids first refused ((s.setWire e.far rest).setPeer e c) := by
  obtain ⟨-, hconn, hcount, hsent, hrecv, haddr⟩ := hc
  have hmem := mem_of_head hw
  have hord := h.ordered e.far
  rw [hw] at hord
  apply (h.pop hw ho).setPeer
  · intro _ _
    refine ⟨(h.stamped e.far msg hmem).2.1, ?_⟩
    intro m hm
    simp only [State.setWire, update_self] at hm
    exact (pairwise_cons.mp hord).1 _ hm rfl m rfl
  · intro _
    rw [hcount]
    exact h.counted e ho
  · intro _ hc
    rw [hconn] at hc
    cases hc
  · intro _
    rw [hsent]
    exact h.later e ho
  · exact haddr
  · intro _
    rw [hrecv]
    exact h.received e ho
  · intro hr
    exact absurd hr (h.not_refused_far hw ho)
  · intro _
    exact ho

lemma accept (h : Inv ids first refused s) (msg : HandshakeMessage) (hs : 1 ≤ s.sent e) (hf : 1 ≤ s.sent e.far)
    (ht : first e.far ≤ msg.time) (hr : ¬ refused e) :
    Inv ids first refused (s.setPeer e (Identity.accept (s.peer e) msg)) := by
  apply h.setPeer
  · exact h.heard e
  · exact h.counted e
  · intro ho' hc'
    exact ⟨ho', hc', rfl⟩
  · exact h.later e
  · rfl
  · intro _ _
    exact ⟨hs, hf, ht, hr⟩
  · intro hfar ho'
    obtain ⟨-, -, -, hopen⟩ := h.refusal e.far hfar
    rw [far_far] at hopen
    exact (hopen ho').1
  · exact id

end Inv

end XosChain.Net
