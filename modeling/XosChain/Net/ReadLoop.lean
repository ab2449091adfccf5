import XosChain.Net.Messages

namespace XosChain.Net

open Lib Raw List

def messageHeaderSize : ℕ := 4
def defSendBufferSize : ℕ := 1024 * 1024 * 4

variable {σ Msg : Type}

structure Node (σ Msg : Type) where
  types : List (Decoder UInt8 Msg)
  handleMessage : σ → Option Bytes → Msg → Option σ

structure Handed (Msg : Type) where
  messageLength : ℕ
  size : ℕ
  blkBuffer : Option Bytes
  msg : Msg
deriving DecidableEq

structure Connection (σ Msg : Type) where
  pendingMessageBuffer : Bytes := []
  outstandingReadBytes : Option ℕ := none
  position : ℕ := 0
  handed : List (Handed Msg) := []
  closed : Bool := false
  state : σ
deriving DecidableEq

section

variable (N : Node σ Msg)

def Node.netMessage : Decoder UInt8 Msg := staticVariant N.types

def Connection.close (c : Connection σ Msg) : Connection σ Msg := { c with pendingMessageBuffer := [], closed := true }

def Connection.advanceReadPtr (c : Connection σ Msg) (bytes : ℕ) : Connection σ Msg :=
  { c with pendingMessageBuffer := c.pendingMessageBuffer.drop bytes, position := c.position + bytes }

def rawBlock (buffer : Bytes) (messageLength which : ℕ) : Option Bytes :=
  if which = signedBlockTag then some (buffer.take messageLength) else none

def processNextMessage (c : Connection σ Msg) (messageLength : ℕ) : Connection σ Msg × Bool :=
  match unsignedInt.run c.pendingMessageBuffer with
  | .done which _ =>
    let blkBuffer := rawBlock c.pendingMessageBuffer messageLength which
    match N.netMessage.run c.pendingMessageBuffer with
    | .done msg size =>
      let c := { c.advanceReadPtr size with handed := c.handed ++ [Handed.mk messageLength size blkBuffer msg] }
      match N.handleMessage c.state blkBuffer msg with
      | some state => ({ c with state }, true)
      | none => (c.close, false)
    | _ => (c.close, false)
  | _ => (c.close, false)

def messageLength (c : Connection σ Msg) : ℕ := ofLittleEndian (c.pendingMessageBuffer.take messageHeaderSize)

def readRound (c : Connection σ Msg) : Connection σ Msg × Bool :=
  let bytesInBuffer := c.pendingMessageBuffer.length
  if bytesInBuffer = 0 then (c, false)
  else if bytesInBuffer < messageHeaderSize then
    ({ c with outstandingReadBytes := some (messageHeaderSize - bytesInBuffer) }, false)
  else if messageLength c > defSendBufferSize * 2 ∨ messageLength c = 0 then (c.close, false)
  else if messageLength c + messageHeaderSize ≤ bytesInBuffer then
    processNextMessage N (c.advanceReadPtr messageHeaderSize) (messageLength c)
  else ({ c with outstandingReadBytes := some (messageLength c + messageHeaderSize - bytesInBuffer) }, false)

def readLoop : ℕ → Connection σ Msg → Connection σ Msg
  | 0, c => c
  | fuel + 1, c =>
    match readRound N c with
    | (c, true) => readLoop fuel c
    | (c, false) => c

def settled (c : Connection σ Msg) : Connection σ Msg := readLoop N c.pendingMessageBuffer.length c

def Connection.extend (c : Connection σ Msg) (bytes : Bytes) : Connection σ Msg :=
  { c with pendingMessageBuffer := c.pendingMessageBuffer ++ bytes }

def readCompleted (c : Connection σ Msg) (bytes : Bytes) : Connection σ Msg :=
  if c.closed then c else settled N (Connection.extend { c with outstandingReadBytes := none } bytes)

end

section

variable {N : Node σ Msg} {c d : Connection σ Msg} {n fuel : ℕ} {x : Bytes}

lemma processNextMessage_cases (c : Connection σ Msg) (n : ℕ) :
    (∃ which k msg size, unsignedInt.run c.pendingMessageBuffer = .done which k ∧
      N.netMessage.run c.pendingMessageBuffer = .done msg size ∧
      processNextMessage N c n = (match N.handleMessage c.state (rawBlock c.pendingMessageBuffer n which) msg with
        | some state => ({ c.advanceReadPtr size with
          handed := c.handed ++ [Handed.mk n size (rawBlock c.pendingMessageBuffer n which) msg], state }, true)
        | none => (Connection.close { c.advanceReadPtr size with
          handed := c.handed ++ [Handed.mk n size (rawBlock c.pendingMessageBuffer n which) msg] }, false))) ∨
    (∀ msg size, N.netMessage.run c.pendingMessageBuffer ≠ .done msg size) ∧
      processNextMessage N c n = (c.close, false) := by
  rw [processNextMessage]
  cases hmsg : N.netMessage.run c.pendingMessageBuffer with
  | done msg size =>
    obtain ⟨which, k, hwhich⟩ := Decoder.bind_done hmsg
    refine .inl ⟨which, k, msg, size, hwhich, rfl, ?_⟩
    rw [hwhich]
    rfl
  | invalid =>
    refine .inr ⟨nofun, ?_⟩
    cases unsignedInt.run c.pendingMessageBuffer <;> rfl
  | short =>
    refine .inr ⟨nofun, ?_⟩
    cases unsignedInt.run c.pendingMessageBuffer <;> rfl

structure Advances (c d : Connection σ Msg) : Prop where
  buffer : d.pendingMessageBuffer.length ≤ c.pendingMessageBuffer.length
  outstanding : d.outstandingReadBytes = c.outstandingReadBytes
  closed : d.closed = c.closed

lemma processNextMessage_advances (h : processNextMessage N c n = (d, true)) : Advances c d := by
  obtain ⟨which, k, msg, size, -, -, heq⟩ | ⟨-, heq⟩ := processNextMessage_cases (N := N) c n
  · rw [heq] at h
    split at h
    · obtain ⟨rfl, -⟩ := Prod.mk.inj h
      refine ⟨?_, rfl, rfl⟩
      change (c.pendingMessageBuffer.drop size).length ≤ _
      rw [length_drop]
      exact Nat.sub_le _ _
    · cases (Prod.mk.inj h).2
  · rw [heq] at h
    cases (Prod.mk.inj h).2

lemma handed_subset_process (c : Connection σ Msg) (n : ℕ) : c.handed ⊆ (processNextMessage N c n).1.handed := by
  obtain ⟨which, k, msg, size, -, -, heq⟩ | ⟨-, heq⟩ := processNextMessage_cases (N := N) c n
  · rw [heq]
    split
    · exact subset_append_left _ _
    · exact subset_append_left _ _
  · rw [heq]
    exact Subset.refl _

lemma readRound_advances (h : readRound N c = (d, true)) :
    d.pendingMessageBuffer.length < c.pendingMessageBuffer.length ∧ d.outstandingReadBytes = c.outstandingReadBytes ∧
      d.closed = c.closed := by
  rw [readRound] at h
  split_ifs at h with h0 h1 h2 h3
  · cases (Prod.mk.inj h).2
  · cases (Prod.mk.inj h).2
  · cases (Prod.mk.inj h).2
  · have hadv := processNextMessage_advances h
    have hlen := hadv.buffer
    change _ ≤ (c.pendingMessageBuffer.drop messageHeaderSize).length at hlen
    rw [length_drop, messageHeaderSize] at hlen
    rw [messageHeaderSize] at h1
    exact ⟨by omega, hadv.outstanding, hadv.closed⟩
  · cases (Prod.mk.inj h).2

lemma handed_subset_round (c : Connection σ Msg) : c.handed ⊆ (readRound N c).1.handed := by
  rw [readRound]
  split_ifs
  · exact Subset.refl _
  · exact Subset.refl _
  · exact Subset.refl _
  · exact handed_subset_process (N := N) (c.advanceReadPtr messageHeaderSize) _
  · exact Subset.refl _

lemma readLoop_fuel (h : c.pendingMessageBuffer.length ≤ fuel) : readLoop N fuel c = settled N c := by
  induction fuel using Nat.strong_induction_on generalizing c with
  | _ fuel ih =>
    rw [settled]
    cases fuel with
    | zero => rw [Nat.le_zero.mp h]
    | succ fuel =>
      cases hlen : c.pendingMessageBuffer.length with
      | zero =>
        have hround : readRound N c = (c, false) := if_pos hlen
        simp only [readLoop, hround]
      | succ m =>
        rw [readLoop, readLoop]
        cases hround : readRound N c with
        | mk d more =>
          cases more with
          | false => rfl
          | true =>
            have hadv := (readRound_advances hround).1
            dsimp only
            rw [ih fuel (by omega) (by omega)]
            rcases Nat.lt_or_ge m (fuel + 1) with hm | hm
            · rw [ih m hm (by omega)]
            · omega

lemma settled_eq (c : Connection σ Msg) : settled N c =
    match readRound N c with
    | (d, true) => settled N d
    | (d, false) => d := by
  rw [← readLoop_fuel (Nat.le_succ _), readLoop]
  cases hround : readRound N c with
  | mk d more =>
    cases more with
    | false => rfl
    | true =>
      have hadv := (readRound_advances hround).1
      exact readLoop_fuel (by omega)

lemma handed_subset_settled (c : Connection σ Msg) : c.handed ⊆ (settled N c).handed := by
  induction hlen : c.pendingMessageBuffer.length using Nat.strong_induction_on generalizing c with
  | _ k ih =>
    rw [settled_eq]
    have hsub := handed_subset_round (N := N) c
    cases hround : readRound N c with
    | mk d more =>
      rw [hround] at hsub
      cases more with
      | false => exact hsub
      | true => exact Subset.trans hsub (ih _ (hlen ▸ (readRound_advances hround).1) d rfl)

end

section

variable {N : Node σ Msg} {c : Connection σ Msg} {n : ℕ} {x : Bytes}

def Exact (c : Connection σ Msg) : Prop := ∀ e ∈ c.handed, e.size = e.messageLength

lemma rawBlock_append {buffer : Bytes} {which : ℕ} (hlen : n ≤ buffer.length) :
    rawBlock (buffer ++ x) n which = rawBlock buffer n which := by
  rw [rawBlock, rawBlock, take_append_of_le_length hlen]

lemma processNextMessage_extend (hlen : n ≤ c.pendingMessageBuffer.length)
    (hexact : Exact (processNextMessage N (c.extend x) n).1) :
    (∃ d, processNextMessage N c n = (d, true) ∧ processNextMessage N (c.extend x) n = (d.extend x, true)) ∨
      ∃ d, processNextMessage N c n = (d, false) ∧ processNextMessage N (c.extend x) n = (d, false) ∧
        d.closed = true := by
  obtain ⟨which, k, msg, size, hwhich, hmsg, hlong⟩ | ⟨hnone, hlong⟩ := processNextMessage_cases (N := N) (c.extend x) n
  · have hsize : size = n := by
      refine hexact ⟨n, size, rawBlock (c.extend x).pendingMessageBuffer n which, msg⟩ ?_
      rw [hlong]
      split <;> exact mem_append_right _ (mem_singleton_self _)
    have hshort : N.netMessage.run c.pendingMessageBuffer = .done msg size :=
      Decoder.done_of_append hmsg (hsize.trans_le hlen)
    have hdrop : (c.pendingMessageBuffer ++ x).drop size = c.pendingMessageBuffer.drop size ++ x :=
      drop_append_of_le_length (hsize.trans_le hlen)
    obtain ⟨which', k', msg', size', hwhich', hmsg', heq⟩ | ⟨hnone, -⟩ := processNextMessage_cases (N := N) c n
    · obtain ⟨rfl, rfl⟩ := Decoded.done.inj (hshort.symm.trans hmsg')
      obtain ⟨rfl, -⟩ := Decoded.done.inj ((unsignedInt.done_append x hwhich').symm.trans hwhich)
      change processNextMessage N (c.extend x) n = (match N.handleMessage c.state
        (rawBlock (c.pendingMessageBuffer ++ x) n which') msg with | some _ => _ | none => _) at hlong
      rw [rawBlock_append hlen] at hlong
      rw [heq, hlong]
      cases N.handleMessage c.state (rawBlock c.pendingMessageBuffer n which') msg with
      | some state =>
        refine .inl ⟨_, rfl, Prod.ext ?_ rfl⟩
        simp only [Connection.advanceReadPtr, Connection.extend, rawBlock_append hlen, hdrop]
      | none =>
        refine .inr ⟨_, rfl, Prod.ext ?_ rfl, rfl⟩
        simp only [Connection.advanceReadPtr, Connection.extend, Connection.close, rawBlock_append hlen]
    · exact absurd hshort (hnone msg size)
  · obtain ⟨which, k, msg, size, -, hmsg, -⟩ | ⟨-, heq⟩ := processNextMessage_cases (N := N) c n
    · exact absurd (N.netMessage.done_append x hmsg) (hnone msg size)
    · exact .inr ⟨c.close, heq, hlong, rfl⟩

lemma readRound_extend (hexact : Exact (readRound N (c.extend x)).1) :
    (∃ outstanding, readRound N c = ({ c with outstandingReadBytes := outstanding }, false)) ∨
    (∃ d, readRound N c = (d, true) ∧ readRound N (c.extend x) = (d.extend x, true)) ∨
      ∃ d, readRound N c = (d, false) ∧ readRound N (c.extend x) = (d, false) ∧ d.closed = true := by
  have hlonger : (c.extend x).pendingMessageBuffer.length = c.pendingMessageBuffer.length + x.length :=
    length_append
  by_cases hempty : c.pendingMessageBuffer.length = 0
  · exact .inl ⟨c.outstandingReadBytes, if_pos hempty⟩
  by_cases hheader : c.pendingMessageBuffer.length < messageHeaderSize
  · refine .inl ⟨some (messageHeaderSize - c.pendingMessageBuffer.length), ?_⟩
    rw [readRound, if_neg hempty, if_pos hheader]
  have hsame : messageLength (c.extend x) = messageLength c := by
    rw [messageLength, messageLength, Connection.extend]
    rw [take_append_of_le_length (not_lt.mp hheader)]
  have hempty' : ¬(c.extend x).pendingMessageBuffer.length = 0 := by omega
  have hheader' : ¬(c.extend x).pendingMessageBuffer.length < messageHeaderSize := by omega
  by_cases hbad : messageLength c > defSendBufferSize * 2 ∨ messageLength c = 0
  · refine .inr (.inr ⟨c.close, ?_, ?_, rfl⟩)
    · rw [readRound, if_neg hempty, if_neg hheader, if_pos hbad]
    · rw [readRound, if_neg hempty', if_neg hheader', hsame, if_pos hbad]
      rfl
  by_cases hall : messageLength c + messageHeaderSize ≤ c.pendingMessageBuffer.length
  · have hround : readRound N c =
        processNextMessage N (c.advanceReadPtr messageHeaderSize) (messageLength c) := by
      rw [readRound, if_neg hempty, if_neg hheader, if_neg hbad, if_pos hall]
    have hround' : readRound N (c.extend x) =
        processNextMessage N ((c.advanceReadPtr messageHeaderSize).extend x) (messageLength c) := by
      rw [readRound, if_neg hempty', if_neg hheader', hsame, if_neg hbad, if_pos (by omega)]
      simp only [Connection.advanceReadPtr, Connection.extend, drop_append_of_le_length (not_lt.mp hheader)]
    rw [hround'] at hexact
    rw [hround, hround']
    refine .inr (processNextMessage_extend ?_ hexact)
    change _ ≤ (c.pendingMessageBuffer.drop messageHeaderSize).length
    rw [length_drop]
    omega
  · refine .inl ⟨some (messageLength c + messageHeaderSize - c.pendingMessageBuffer.length), ?_⟩
    rw [readRound, if_neg hempty, if_neg hheader, if_neg hbad, if_neg hall]

lemma settled_extend (hopen : c.closed = false) (hout : c.outstandingReadBytes = none)
    (hexact : Exact (settled N (c.extend x))) :
    settled N (c.extend x) = readCompleted N (settled N c) x ∧ Exact (settled N c) := by
  induction hlen : c.pendingMessageBuffer.length using Nat.strong_induction_on generalizing c with
  | _ k ih =>
    have hround : Exact (readRound N (c.extend x)).1 := by
      intro e he
      refine hexact e ?_
      rw [settled_eq]
      cases hr : readRound N (c.extend x) with
      | mk d more =>
        rw [hr] at he
        cases more with
        | false => exact he
        | true => exact handed_subset_settled d he
    obtain ⟨outstanding, hwait⟩ | ⟨d, hd, hd'⟩ | ⟨d, hd, hd', hclosed⟩ := readRound_extend hround
    · have hsettled : settled N c = { c with outstandingReadBytes := outstanding } := by
        rw [settled_eq, hwait]
      refine ⟨?_, fun e he => hexact e (handed_subset_settled (c.extend x) ?_)⟩
      · rw [hsettled, readCompleted, if_neg (by simp [hopen])]
        congr 1
        rw [Connection.extend, Connection.extend, hout]
      · rw [hsettled] at he
        exact he
    · have hadv := readRound_advances hd
      have hsettled : settled N c = settled N d := by rw [settled_eq, hd]
      have hsettled' : settled N (c.extend x) = settled N (d.extend x) := by rw [settled_eq, hd']
      rw [hsettled'] at hexact
      rw [hsettled, hsettled']
      exact ih _ (hlen ▸ hadv.1) (hadv.2.2.trans hopen) (hadv.2.1.trans hout) hexact rfl
    · have hsettled : settled N c = d := by rw [settled_eq, hd]
      have hsettled' : settled N (c.extend x) = d := by rw [settled_eq, hd']
      rw [hsettled'] at hexact
      rw [hsettled, hsettled', readCompleted, if_pos hclosed]
      exact ⟨rfl, hexact⟩

def received (N : Node σ Msg) (state : σ) (chunks : List Bytes) : Connection σ Msg :=
  chunks.foldl (readCompleted N) { state }

lemma received_eq {state : σ} {chunks : List Bytes} (hexact : Exact (received N state [chunks.flatten])) :
    received N state chunks = received N state [chunks.flatten] := by
  induction chunks using reverseRecOn with
  | nil => rfl
  | append_singleton chunks x ih =>
    have hwhole : received N state [(chunks ++ [x]).flatten] =
        settled N (Connection.extend (Connection.extend { state } chunks.flatten) x) := by
      rw [flatten_append, flatten_singleton]
      rfl
    rw [hwhole] at hexact ⊢
    obtain ⟨heq, hbefore⟩ := settled_extend rfl rfl hexact
    rw [heq, received, foldl_append]
    change readCompleted N (received N state chunks) x = _
    rw [ih hbefore]
    rfl

end

section

variable {N : Node σ Msg} {state : σ} {stream : Bytes}

def announced (stream : Bytes) : ℕ := ofLittleEndian (stream.take messageHeaderSize)

structure Complete (stream : Bytes) : Prop where
  length : announced stream + messageHeaderSize ≤ stream.length
  pos : 0 < announced stream
  le : announced stream ≤ defSendBufferSize * 2

inductive Framed (N : Node σ Msg) : σ → Bytes → Prop
  | stopped {state : σ} {stream : Bytes} : ¬ Complete stream → Framed N state stream
  | undecoded {state : σ} {stream : Bytes} :
      (∀ msg size, N.netMessage.run (stream.drop messageHeaderSize) ≠ .done msg size) → Framed N state stream
  | message {state : σ} {stream : Bytes} {which k : ℕ} {msg : Msg} :
      unsignedInt.run (stream.drop messageHeaderSize) = .done which k →
      N.netMessage.run (stream.drop messageHeaderSize) = .done msg (announced stream) →
      (∀ state', N.handleMessage state (rawBlock (stream.drop messageHeaderSize) (announced stream) which) msg =
          some state' → Framed N state' ((stream.drop messageHeaderSize).drop (announced stream))) →
      Framed N state stream

lemma framed_iff {which k size : ℕ} {msg : Msg} (hcomplete : Complete stream)
    (hwhich : unsignedInt.run (stream.drop messageHeaderSize) = .done which k)
    (hmsg : N.netMessage.run (stream.drop messageHeaderSize) = .done msg size) :
    Framed N state stream ↔ size = announced stream ∧
      ∀ state', N.handleMessage state (rawBlock (stream.drop messageHeaderSize) (announced stream) which) msg =
        some state' → Framed N state' ((stream.drop messageHeaderSize).drop size) := by
  constructor
  · intro h
    cases h with
    | stopped hstop => exact absurd hcomplete hstop
    | undecoded hnone => exact absurd hmsg (hnone msg size)
    | message hwhich' hmsg' hrest =>
      obtain ⟨rfl, -⟩ := Decoded.done.inj (hwhich.symm.trans hwhich')
      obtain ⟨rfl, rfl⟩ := Decoded.done.inj (hmsg.symm.trans hmsg')
      exact ⟨rfl, hrest⟩
  · rintro ⟨rfl, hrest⟩
    exact .message hwhich hmsg hrest

lemma readRound_incomplete {c : Connection σ Msg} (h : ¬ Complete c.pendingMessageBuffer) :
    (readRound N c).1.handed = c.handed ∧ (readRound N c).2 = false := by
  rw [readRound]
  split_ifs with hempty hheader hbad hall
  · exact ⟨rfl, rfl⟩
  · exact ⟨rfl, rfl⟩
  · exact ⟨rfl, rfl⟩
  · obtain ⟨hle, hpos⟩ := not_or.mp hbad
    exact absurd ⟨hall, Nat.pos_of_ne_zero hpos, not_lt.mp hle⟩ h
  · exact ⟨rfl, rfl⟩

lemma readRound_complete {c : Connection σ Msg} (h : Complete c.pendingMessageBuffer) :
    readRound N c =
      processNextMessage N (c.advanceReadPtr messageHeaderSize) (announced c.pendingMessageBuffer) := by
  have hlen := h.length
  have hbad : ¬ (messageLength c > defSendBufferSize * 2 ∨ messageLength c = 0) :=
    not_or.mpr ⟨not_lt.mpr h.le, h.pos.ne'⟩
  have hheader : ¬ c.pendingMessageBuffer.length < messageHeaderSize := by omega
  have hempty : c.pendingMessageBuffer.length ≠ 0 := by
    have hpos := h.pos
    omega
  have hsame : messageLength c = announced c.pendingMessageBuffer := rfl
  rw [readRound, if_neg hempty, if_neg hheader, if_neg hbad, hsame, if_pos hlen]

lemma exact_append {c d : Connection σ Msg} {e : Handed Msg} (h : d.handed = c.handed ++ [e]) :
    Exact d ↔ Exact c ∧ e.size = e.messageLength := by
  rw [Exact, h, forall_mem_append, forall_mem_singleton, Exact]

lemma exact_settled_iff (c : Connection σ Msg) :
    Exact (settled N c) ↔ Exact c ∧ Framed N c.state c.pendingMessageBuffer := by
  induction hlen : c.pendingMessageBuffer.length using Nat.strong_induction_on generalizing c with
  | _ k ih =>
    rw [settled_eq]
    by_cases hcomplete : Complete c.pendingMessageBuffer
    · have hround := readRound_complete (N := N) hcomplete
      obtain ⟨which, j, msg, size, hwhich, hmsg, hprocess⟩ | ⟨hnone, hprocess⟩ :=
        processNextMessage_cases (N := N) (c.advanceReadPtr messageHeaderSize) (announced c.pendingMessageBuffer)
      · rw [framed_iff hcomplete hwhich hmsg]
        rw [hprocess] at hround
        split at hround
        · next state' hstate =>
          have hadv := (readRound_advances hround).1
          rw [hround]
          dsimp only
          rw [ih _ (hlen ▸ hadv) _ rfl, exact_append (c := c) rfl, and_assoc]
          refine and_congr_right fun _ => and_congr_right fun _ => ⟨fun h state'' hstate' => ?_, fun h => h _ hstate⟩
          rw [← Option.some.inj (hstate.symm.trans hstate')]
          exact h
        · next hstate =>
          rw [hround]
          refine (exact_append (c := c) rfl).trans (and_congr_right fun _ => ⟨fun h => ⟨h, fun _ hstate' => ?_⟩, And.left⟩)
          cases hstate.symm.trans hstate'
      · rw [hround, hprocess]
        exact ⟨fun h => ⟨h, .undecoded hnone⟩, And.left⟩
    · obtain ⟨hhanded, hmore⟩ := readRound_incomplete (N := N) hcomplete
      cases hround : readRound N c with
      | mk d more =>
        rw [hround] at hhanded hmore
        cases hmore
        have hsame : Exact d ↔ Exact c := by rw [Exact, Exact, hhanded]
        exact hsame.trans ⟨fun h => ⟨h, .stopped hcomplete⟩, And.left⟩

theorem chunking_independent_iff (N : Node σ Msg) (state : σ) (stream : Bytes) :
    (∀ chunks : List Bytes, chunks.flatten = stream → Exact (received N state chunks) ∧
      ∀ chunks' : List Bytes, chunks'.flatten = stream → received N state chunks' = received N state chunks) ↔
    Framed N state stream := by
  have hwhole : Exact (received N state [stream]) ↔ Framed N state stream := by
    refine (exact_settled_iff (Connection.extend { state } stream)).trans ⟨And.right, fun h => ⟨?_, h⟩⟩
    intro e he
    cases he
  rw [← hwhole]
  constructor
  · intro hall
    exact (hall [stream] flatten_singleton).1
  · rintro hexact chunks rfl
    have hchunks := received_eq hexact
    refine ⟨by rwa [hchunks], fun chunks' hsame => ?_⟩
    rw [hchunks, ← hsame]
    refine received_eq ?_
    rwa [hsame]

end

section

def listener : Node Unit (ℕ × Bytes) where
  types := messages.zipIdx.map fun type => type.1.recorded.bind fun bytes => .value (type.2, bytes)
  handleMessage _ _ _ := some ()

def shortRequest : List Bytes := [[1, 0, 0, 0], [6], [2, 0, 0, 0, 3, 0, 0, 0]]

def longRequest : Bytes := [20, 0, 0, 0, 6, 2, 0, 0, 0, 3, 0, 0, 0, 9, 9, 9, 9, 9, 9, 9, 9, 9, 9, 9]

theorem requests_misread :
    (received listener () shortRequest).handed = [] ∧ (received listener () shortRequest).closed = true ∧
    (received listener () [shortRequest.flatten]).handed = [⟨1, 9, none, (6, [2, 0, 0, 0, 3, 0, 0, 0])⟩] ∧
    (received listener () [shortRequest.flatten]).closed = false ∧
    (received listener () [longRequest]).handed = [⟨20, 9, none, (6, [2, 0, 0, 0, 3, 0, 0, 0])⟩] ∧
    (received listener () [longRequest]).closed = true := by
  decide +kernel

end

end XosChain.Net
