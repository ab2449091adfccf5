import XosChain.Net.HandshakeInvariant

namespace XosChain.Net

open Function List End

namespace Inv

variable {ids : Bool → Identity} {first : End → ℤ} {refused : End → Prop} {s : State} {e e' : End} {c : Peer}
  {msg : HandshakeMessage} {rest l : List Message} {reason : GoAwayReason}

lemma generation_hello {n : ℕ} (hc : c.sentHandshakeCount = BitVec.ofNat 16 n) (hn : n + 1 ≤ 65536)
    (node : Identity) (v : View) : (node.hello c v).generation = 1 ↔ n = 0 := by
  change c.sentHandshakeCount + 1 = 1 ↔ _
  rw [hc]
  constructor
  · intro h
    have hmod := congrArg BitVec.toNat h
    simp only [BitVec.toNat_add, BitVec.toNat_ofNat] at hmod
    omega
  · rintro rfl
    rfl

lemma wire_enqueue_self (s : State) (e : End) (m : Message) : (s.enqueue e m).wire e = s.wire e ++ [m] := by
  simp [State.enqueue]

lemma wire_enqueue_of_ne (s : State) (he : e' ≠ e) (m : Message) : (s.enqueue e m).wire e' = s.wire e' := by
  simp [State.enqueue, he]

lemma mem_wire_enqueue {s : State} {m m' : Message} (h : m' ∈ (s.enqueue e m).wire e') :
    m' ∈ s.wire e' ∨ e' = e ∧ m' = m := by
  by_cases he : e' = e
  · subst he
    rw [wire_enqueue_self, mem_append, mem_singleton] at h
    exact h.imp_right fun hm => ⟨rfl, hm⟩
  · rw [wire_enqueue_of_ne s he] at h
    exact .inl h

lemma append_ne_handshake {m : Message} (hl : l ≠ [] ∨ isHandshake m = false)
    (h : ∀ msg rest, l ≠ .handshake msg :: rest) (msg : HandshakeMessage) (rest : List Message) :
    l ++ [m] ≠ .handshake msg :: rest := by
  intro heq
  cases l with
  | nil =>
    obtain ⟨rfl, -⟩ := List.cons.inj heq
    simp [isHandshake] at hl
  | cons m' ms =>
    obtain ⟨rfl, -⟩ := List.cons.inj heq
    exact h msg ms rfl

lemma silent_enqueue {s : State} {m : Message} (hl : e' = e → s.wire e ≠ [] ∨ isHandshake m = false)
    (h : ∀ msg rest, s.wire e' ≠ .handshake msg :: rest) (msg : HandshakeMessage) (rest : List Message) :
    (s.enqueue e m).wire e' ≠ .handshake msg :: rest := by
  by_cases he : e' = e
  · subst he
    rw [wire_enqueue_self]
    exact append_ne_handshake (hl rfl) h msg rest
  · rw [wire_enqueue_of_ne s he]
    exact h msg rest

lemma enqueue_ne_nil {s : State} {m : Message} (h : s.wire e' ≠ []) : (s.enqueue e m).wire e' ≠ [] := by
  by_cases he : e' = e
  · subst he
    rw [wire_enqueue_self]
    simp
  · rw [wire_enqueue_of_ne s he]
    exact h

lemma told_goAway {s : State}
    (h : (s.enqueue e (.goAway reason)).told e' = true) : s.told e' = true ∨ e' = e ∧ reason = .duplicate := by
  by_cases hr : reason = .duplicate
  · subst hr
    by_cases he : e' = e
    · exact .inr ⟨he, rfl⟩
    · left
      simpa [State.enqueue, he] using h
  · left
    cases reason <;> first | exact h | exact absurd rfl hr

def GaveUp (first : End → ℤ) (s : State) (e : End) : Prop :=
  (1 ≤ s.sent e ∧ 1 ≤ s.sent e.far ∧ 1 ≤ s.sent e.beside ∧ 1 ≤ s.sent e.beside.far) ∧
    first e.beside + first e.beside.far < first e + first e.far ∧
    ¬ ((s.peer e.beside).isOpen = true ∧ (s.peer e.beside).connecting = true)

lemma goAway (h : Inv ids first refused s) {refused' : End → Prop}
    (hold : ∀ e', refused e' → refused' e')
    (hnew : ∀ e', refused' e' → refused e' ∨
      e' = e ∧ e.opener = false ∧ s.sent e = 0 ∧ 1 ≤ s.sent e.far ∧ ∀ msg, .handshake msg ∉ s.wire e.far)
    (htold : reason = .duplicate → s.told e.beside = false ∧ s.told e.beside.far = false ∧
      (e.opener = false → refused' e) ∧ (e.opener = true → GaveUp first s e)) :
    Inv ids first refused' (s.enqueue e (.goAway reason)) := by
  have hmem : ∀ {e' msg}, .handshake msg ∈ (s.enqueue e (.goAway reason)).wire e' → .handshake msg ∈ s.wire e' := by
    intro e' msg hm
    obtain hm | ⟨-, hm⟩ := mem_wire_enqueue hm
    · exact hm
    · cases hm
  refine { h with
    stamped := ?_, ordered := ?_, heard := ?_, received := ?_, refusal := ?_, toldOpener := ?_, toldAcceptor := ?_,
    one := ?_ }
  · intro e' msg hm
    exact h.stamped e' msg (hmem hm)
  · intro e'
    by_cases he : e' = e
    · subst he
      rw [wire_enqueue_self, pairwise_append]
      refine ⟨h.ordered e', pairwise_singleton _ _, ?_⟩
      intro m _ m' hm' _ msg hmsg
      rw [mem_singleton.mp hm'] at hmsg
      cases hmsg
    · rw [wire_enqueue_of_ne s he]
      exact h.ordered e'
  · intro e' ho hc
    obtain ⟨hs, hg⟩ := h.heard e' ho hc
    exact ⟨hs, fun msg hm => hg msg (hmem hm)⟩
  · intro e' ho hrecv
    obtain ⟨hs, hf, ht, hr⟩ := h.received e' ho hrecv
    refine ⟨hs, hf, ht, ?_⟩
    intro hr'
    obtain hr' | ⟨rfl, -, hz, -⟩ := hnew e' hr'
    · exact hr hr'
    · change 1 ≤ s.sent e' at hs
      omega
  · intro e' hr
    obtain hr | ⟨rfl, hacc, hz, hf, hno⟩ := hnew e' hr
    · obtain ⟨hacc, hs, hno, hopen⟩ := h.refusal e' hr
      refine ⟨hacc, hs, fun msg hm => hno msg (hmem hm), ?_⟩
      intro ho
      obtain ⟨hc, hw, hne⟩ := hopen ho
      exact ⟨hc, silent_enqueue (fun _ => .inr rfl) hw, fun ho' => enqueue_ne_nil (hne ho')⟩
    · refine ⟨hacc, hf, fun msg hm => hno msg (hmem hm), ?_⟩
      intro ho
      refine ⟨?_, ?_, ?_⟩
      · by_contra hc
        obtain ⟨hs, -⟩ := h.heard e'.far ho (Bool.eq_false_of_not_eq_true hc)
        rw [far_far] at hs
        omega
      · refine silent_enqueue (fun _ => .inr rfl) fun msg rest hw => ?_
        obtain ⟨-, hs, -⟩ := h.stamped e' msg (by rw [hw]; exact mem_cons_self)
        omega
      · intro _
        rw [wire_enqueue_self]
        simp
  · intro e' ht hop
    obtain ht | ⟨rfl, hr⟩ := told_goAway ht
    · exact h.toldOpener e' ht hop
    · exact (htold hr).2.2.2 hop
  · intro e' ht hop
    obtain ht | ⟨rfl, hr⟩ := told_goAway ht
    · exact hold e' (h.toldAcceptor e' ht hop)
    · exact (htold hr).2.2.1 hop
  · intro e' ht
    refine ⟨Bool.eq_false_of_not_eq_true fun hb => ?_, Bool.eq_false_of_not_eq_true fun hb => ?_⟩
    · obtain ht | ⟨rfl, hr⟩ := told_goAway ht <;> obtain hb | ⟨hb, hr'⟩ := told_goAway hb
      · simp [(h.one e' ht).1] at hb
      · rw [← hb, beside_beside] at htold
        simp [(htold hr').1] at ht
      · simp [(htold hr).1] at hb
      · exact beside_ne _ hb
    · obtain ht | ⟨rfl, hr⟩ := told_goAway ht <;> obtain hb | ⟨hb, hr'⟩ := told_goAway hb
      · simp [(h.one e' ht).2] at hb
      · rw [← hb, ← far_beside, far_beside, far_beside, beside_beside, far_far] at htold
        simp [(htold hr').2.1] at ht
      · simp [(htold hr).2.1] at hb
      · exact beside_far_ne _ hb

section

variable {v : View}

lemma peer_send_self : (s.send ids e v).peer e = (ids e.node).sendHandshake (s.peer e) v := by
  simp [State.send, State.enqueue, State.setPeer]

variable {e' : End} {t : ℤ}

lemma peer_send_of_ne (he : e' ≠ e) : (s.send ids e v).peer e' = s.peer e' := by
  simp [State.send, State.enqueue, State.setPeer, State.tick, he]

lemma wire_send_self : (s.send ids e v).wire e = s.wire e ++ [.handshake ((ids e.node).hello (s.peer e) v)] :=
  wire_enqueue_self _ _ _

lemma wire_send_of_ne (he : e' ≠ e) : (s.send ids e v).wire e' = s.wire e' :=
  wire_enqueue_of_ne _ he _

lemma sent_send_self : (s.send ids e v).sent e = s.sent e + 1 := by
  simp [State.send, State.enqueue, State.setPeer, State.tick]

lemma sent_send_of_ne (he : e' ≠ e) : (s.send ids e v).sent e' = s.sent e' := by
  simp [State.send, State.enqueue, State.setPeer, State.tick, he]

lemma sent_le_send (s : State) (e e' : End) (v : View) : s.sent e' ≤ (s.send ids e v).sent e' := by
  by_cases he : e' = e
  · rw [he, sent_send_self]
    omega
  · rw [sent_send_of_ne he]

lemma send_same (e' : End) : ((s.send ids e v).peer e').isOpen = (s.peer e').isOpen ∧
    ((s.send ids e v).peer e').connecting = (s.peer e').connecting ∧
    ((s.send ids e v).peer e').peerAddr = (s.peer e').peerAddr ∧
    ((s.send ids e v).peer e').lastHandshakeRecv = (s.peer e').lastHandshakeRecv := by
  by_cases he : e' = e
  · rw [he, peer_send_self]
    exact ⟨rfl, rfl, rfl, rfl⟩
  · rw [peer_send_of_ne he]
    exact ⟨rfl, rfl, rfl, rfl⟩

def firstAfter (first : End → ℤ) (s : State) (e : End) (t : ℤ) : End → ℤ :=
  if s.sent e = 0 then update first e t else first

lemma firstAfter_of_sent (hs : 1 ≤ s.sent e') : firstAfter first s e t e' = first e' := by
  rw [firstAfter]
  split_ifs with hz
  · apply update_of_ne
    rintro rfl
    omega
  · rfl

lemma firstAfter_of_zero (hs : s.sent e = 0) : firstAfter first s e t e = t := by
  rw [firstAfter, if_pos hs, update_self]

lemma firstAfter_le (h : Inv ids first refused s) (ht : s.clock e.node < t) : firstAfter first s e t e ≤ t := by
  by_cases hs : s.sent e = 0
  · rw [firstAfter_of_zero hs]
  · have hs' : 1 ≤ s.sent e := by omega
    rw [firstAfter_of_sent hs']
    exact (h.clocked e hs').trans ht.le

lemma send (h : Inv ids first refused s) (ht : s.clock e.node < v.time) (ho : (s.peer e).isOpen = true)
    (hmay : (s.peer e).connecting = false ∨ e.opener = true ∧ s.sent e = 0) (hn : s.sent e + 1 ≤ 65536) :
    Inv ids (firstAfter first s e v.time) refused (s.send ids e v) := by
  have hgen := generation_hello (h.counted e ho) hn (ids e.node) v
  have hmem : ∀ {e' m}, m ∈ (s.send ids e v).wire e' →
      m ∈ s.wire e' ∨ e' = e ∧ m = .handshake ((ids e.node).hello (s.peer e) v) := mem_wire_enqueue
  have hle := h.firstAfter_le ht
  have hmono : ∀ e' w, s.sent e' ≤ (s.send ids e w).sent e' := sent_le_send s e
  constructor
  · intro e' hs
    by_cases he : e' = e
    · subst he
      simpa [State.send, State.enqueue, State.setPeer, State.tick] using hle
    · rw [sent_send_of_ne he] at hs
      rw [firstAfter_of_sent hs]
      have hc := h.clocked e' hs
      by_cases hnode : e'.node = e.node
      · rw [hnode] at hc ⊢
        simpa [State.send, State.enqueue, State.setPeer, State.tick] using hc.trans ht.le
      · simpa [State.send, State.enqueue, State.setPeer, State.tick, hnode] using hc
  · intro e' msg hm
    obtain hm | ⟨rfl, hm⟩ := hmem hm
    · obtain ⟨hname, hs, htime, hone, hmore⟩ := h.stamped e' msg hm
      rw [firstAfter_of_sent hs]
      exact ⟨hname, hs.trans (hmono e' v), htime, hone, fun hg => (hmore hg).trans (hmono e' v)⟩
    · cases hm
      rw [sent_send_self, hgen]
      refine ⟨rfl, by omega, hle, fun hz => (firstAfter_of_zero hz).symm, ?_⟩
      intro hg
      have hz := mt hgen.mpr hg
      omega
  · intro e'
    by_cases he : e' = e
    · subst he
      rw [wire_send_self, pairwise_append]
      refine ⟨h.ordered e', pairwise_singleton _ _, ?_⟩
      intro m hm m' hm' hhand msg hmsg hone
      rw [mem_singleton.mp hm'] at hmsg
      cases hmsg
      cases m with
      | goAway reason => cases hhand
      | handshake msg =>
        obtain ⟨-, hs, -⟩ := h.stamped e' msg hm
        have hz := hgen.mp hone
        omega
    · rw [wire_send_of_ne he]
      exact h.ordered e'
  · intro e' ho' hc'
    rw [(send_same e').1] at ho'
    rw [(send_same e').2.1] at hc'
    obtain ⟨hs, hg⟩ := h.heard e' ho' hc'
    refine ⟨hs.trans (hmono _ v), ?_⟩
    intro msg hm
    obtain hm | ⟨rfl, hm⟩ := hmem hm
    · exact hg msg hm
    · cases hm
      intro hone
      have hz := hgen.mp hone
      omega
  · intro e' ho'
    by_cases he : e' = e
    · subst he
      rw [peer_send_self, sent_send_self, BitVec.ofNat_add, ← h.counted e' ho]
      rfl
    · rw [peer_send_of_ne he] at ho' ⊢
      rw [sent_send_of_ne he]
      exact h.counted e' ho'
  · intro e' ho' hc'
    by_cases he : e' = e
    · subst he
      rw [peer_send_self] at hc' ⊢
      rw [sent_send_self]
      obtain hconn | ⟨hop, hz⟩ := hmay
      · change (s.peer e').connecting = true at hc'
        rw [hconn] at hc'
        cases hc'
      · refine ⟨by omega, fun _ => (firstAfter_of_zero hz).symm, ?_⟩
        rw [hop]
        intro hf
        cases hf
    · rw [peer_send_of_ne he] at ho' hc' ⊢
      rw [sent_send_of_ne he]
      obtain ⟨h1, h2, h3⟩ := h.fresh e' ho' hc'
      refine ⟨h1, ?_, h3⟩
      intro hs
      rw [firstAfter_of_sent hs]
      exact h2 hs
  · intro e' ho' hs
    by_cases he : e' = e
    · subst he
      rw [peer_send_self]
      exact hle
    · rw [peer_send_of_ne he] at ho' ⊢
      rw [sent_send_of_ne he] at hs
      rw [firstAfter_of_sent hs]
      exact h.later e' ho' hs
  · intro e'
    by_cases he : e' = e
    · subst he
      rw [sent_send_self, sent_send_of_ne (far_ne e')]
      obtain hconn | ⟨hop, hz⟩ := hmay
      · have hfar := (h.heard e' ho hconn).1
        exact ⟨fun _ _ => hfar, fun _ => hfar⟩
      · refine ⟨?_, by omega⟩
        rw [hop]
        intro hf
        cases hf
    · rw [sent_send_of_ne he]
      obtain ⟨h1, h2⟩ := h.answered e'
      exact ⟨fun hop hs => (h1 hop hs).trans (hmono _ v), fun hs => (h2 hs).trans (hmono _ v)⟩
  · intro e' hop
    rw [(send_same e').2.2.1]
    exact h.address e' hop
  · intro e' ho' hr
    rw [(send_same e').1] at ho'
    rw [(send_same e').2.2.2] at hr ⊢
    obtain ⟨hs, hf, htime, hnot⟩ := h.received e' ho' hr
    rw [firstAfter_of_sent hf]
    exact ⟨hs.trans (hmono e' v), hf.trans (hmono _ v), htime, hnot⟩
  · intro e' hr
    obtain ⟨hacc, hs, hno, hopen⟩ := h.refusal e' hr
    refine ⟨hacc, hs.trans (hmono _ v), ?_, ?_⟩
    · intro msg hm
      obtain hm | ⟨rfl, -⟩ := hmem hm
      · exact hno msg hm
      · obtain ⟨hconn, -, -⟩ := hopen ho
        obtain hc | ⟨-, hz⟩ := hmay
        · rw [hconn] at hc
          cases hc
        · omega
    · rw [(send_same e'.far).1, (send_same e'.far).2.1, (send_same e').1]
      intro hfar
      obtain ⟨hconn, hw, hne⟩ := hopen hfar
      refine ⟨hconn, silent_enqueue (fun he => ?_) hw, fun ho' => enqueue_ne_nil (hne ho')⟩
      subst he
      exact .inl (hne ho)
  · intro e' htold hop
    obtain ⟨⟨h1, h2, h3, h4⟩, hlt, hb⟩ := h.toldOpener e' htold hop
    rw [firstAfter_of_sent h1, firstAfter_of_sent h2, firstAfter_of_sent h3, firstAfter_of_sent h4,
      (send_same e'.beside).1, (send_same e'.beside).2.1]
    exact ⟨⟨h1.trans (hmono _ v), h2.trans (hmono _ v), h3.trans (hmono _ v), h4.trans (hmono _ v)⟩, hlt, hb⟩
  · exact h.toldAcceptor
  · exact h.one

end

end Inv

end XosChain.Net
