import XosChain.Net.Duplicates

namespace XosChain.Net

open Function State Identity List

def plain (n : Bool) : Identity where
  nodeId := if n then 1 else 2
  chainId := 7
  p2pAddress := if n then "a" else "b"
  shortId := if n then "1" else "2"
  os := "linux"
  hash t := t.natAbs
  sign _ := 0

def plainHello (n : Bool) (t : ℤ) (sent : ℕ) : HandshakeMessage :=
  { (plain n).populate { time := t } with generation := BitVec.ofNat 16 sent }

def caughtUp (sent : End → ℕ) (stamp : End → ℤ) (clock : Bool → ℤ) : State where
  peer e :=
    { connecting := false
      peerAddr := if e.opener = true then "host:9876" else ""
      nodeId := (plain (!e.node)).nodeId
      protocolVersion := netVersion
      lastHandshakeRecv := plainHello (!e.node) (stamp e.far) (sent e.far)
      lastHandshakeSent := plainHello e.node (stamp e) (sent e)
      sentHandshakeCount := BitVec.ofNat 16 (sent e) }
  clock
  sent

def reading (t : ℤ) : View := { time := t }

section

variable {sent : End → ℕ} {stamp : End → ℤ} {clock : Bool → ℤ} {e : End} {t : ℤ} {N : ℕ}

lemma plainHello_valid (n m : Bool) (t : ℤ) (k : ℕ) : (plain m).isValid (plainHello n t k) = true := by
  cases n <;> simp [isValid, plainHello, populate, plain, name]

lemma handle_later {c check : Peer} {n m : Bool} {k : ℕ} (hk : BitVec.ofNat 16 k ≠ 1) (v : View) :
    (plain m).handleHandshake c check (plainHello n t k) v =
      (accept { c with connecting := false } (plainHello n t k), []) := by
  have hg : (plainHello n t k).generation ≠ 1 := hk
  rw [handleHandshake, if_neg (by simp [plainHello_valid]), if_neg hg]

lemma step_send (ht : clock e.node < t) :
    (caughtUp sent stamp clock).step plain (.sendHandshake e (reading t)) =
      some ((caughtUp sent stamp clock).send plain e (reading t)) := by
  rw [step, if_pos]
  exact ⟨rfl, ht⟩

lemma hello_caughtUp : (plain e.node).hello ((caughtUp sent stamp clock).peer e) (reading t) =
    plainHello e.node t (sent e + 1) := by
  simp [hello, plainHello, caughtUp, reading, BitVec.ofNat_add]

lemma exchange (h : Reachable plain Addable N (caughtUp sent stamp clock)) (ht : ∀ n, clock n < t) (hr : Addable t)
    (hk : BitVec.ofNat 16 (sent e + 1) ≠ 1) (hN : ∀ e', sent e' ≤ N) (hN' : sent e + 1 ≤ N) :
    Reachable plain Addable N (caughtUp (update sent e (sent e + 1)) (update stamp e t) (fun _ => t)) := by
  have hbound : ∀ e', update sent e (sent e + 1) e' ≤ N := by
    intro e'
    by_cases he : e' = e
    · rw [he, update_self]
      exact hN'
    · rw [update_of_ne he]
      exact hN e'
  set s1 := (caughtUp sent stamp clock).send plain e (reading t) with hs1
  have hsent : s1.sent = update sent e (sent e + 1) := rfl
  have h1 : Reachable plain Addable N s1 := by
    refine h.step (step_send (ht e.node)) ?_ hbound
    rintro _ ⟨⟩
    exact hr
  have hwire : s1.wire e.far.far = [.handshake (plainHello e.node t (sent e + 1))] := by
    rw [End.far_far, ← hello_caughtUp]
    exact Inv.wire_enqueue_self _ _ _
  have hpeer : s1.peer e.far = (caughtUp sent stamp clock).peer e.far := Inv.peer_send_of_ne (End.far_ne e)
  have hclock : s1.clock e.far.node < t := by
    have hne : e.far.node ≠ e.node := by simp [End.far]
    change update clock e.node t e.far.node < t
    rw [update_of_ne hne]
    exact ht _
  have hstep : s1.step plain (.deliver e.far (reading t)) =
      some (caughtUp (update sent e (sent e + 1)) (update stamp e t) (fun _ => t)) := by
    simp only [step, hwire]
    rw [if_pos ⟨by rw [hpeer]; rfl, hclock⟩]
    simp only [receive, handle_later hk, enqueueAll, foldl_nil, Option.some.injEq]
    ext1
    · funext e'
      by_cases hfar : e' = e.far
      · subst hfar
        simp [setPeer, setWire, tick, hpeer, caughtUp, accept]
      · by_cases he : e' = e
        · subst he
          have hself : s1.peer e' = (plain e'.node).sendHandshake ((caughtUp sent stamp clock).peer e') (reading t) :=
            Inv.peer_send_self
          simp only [setPeer, setWire, tick, update_of_ne hfar, hself, sendHandshake,
            hello_caughtUp]
          simp [caughtUp, BitVec.ofNat_add]
        · have hother : s1.peer e' = (caughtUp sent stamp clock).peer e' := Inv.peer_send_of_ne he
          have hne : e'.far ≠ e := by
            rintro rfl
            simp at hfar
          simp [setPeer, setWire, tick, hfar, hother, caughtUp, he, hne]
    · funext e'
      by_cases he : e' = e
      · subst he
        simp [setPeer, setWire, tick, caughtUp]
      · have hother : s1.wire e' = [] := Inv.wire_enqueue_of_ne _ he _
        simp [setPeer, setWire, tick, he, hother, caughtUp]
    · funext n
      by_cases hn : n = !e.node
      · simp [setPeer, setWire, tick, hn, caughtUp, reading]
      · have hclock' : s1.clock n = t := by
          have hn' : n = e.node := by
            cases n <;> cases hb : e.node <;> simp_all
          rw [hn']
          change update clock e.node t e.node = t
          rw [update_self]
        simp [setPeer, setWire, tick, hn, hclock', caughtUp]
    · rfl
    · rfl
  refine h1.step hstep ?_ hbound
  rintro _ ⟨⟩
  exact hr

def roundStamp (t : ℤ) (e : End) : ℤ :=
  t + (if e.node then 0 else 2) + (if e.link then 0 else 1)

lemma exchange_round {n : ℕ} (h : Reachable plain Addable N (caughtUp (fun _ => n) stamp clock)) (ht : ∀ m, clock m < t)
    (hr : 0 ≤ t ∧ t + 3 < 2 ^ 62) (hk : BitVec.ofNat 16 (n + 1) ≠ 1) (hN : n + 1 ≤ N) :
    Reachable plain Addable N (caughtUp (fun _ => n + 1) (roundStamp t) (fun _ => t + 3)) := by
  have hle : ∀ (sent : End → ℕ) (e : End), (∀ e', sent e' ≤ N) → ∀ e', update sent e (n + 1) e' ≤ N := by
    intro sent e hs e'
    by_cases he : e' = e
    · simpa [he] using hN
    · simpa [he] using hs e'
  have hread : ∀ i : ℤ, 0 ≤ i → i ≤ 3 → Addable (t + i) := fun i h h' => ⟨by omega, by omega⟩
  have hN0 : ∀ e' : End, (fun _ => n) e' ≤ N := fun _ => (Nat.le_succ n).trans hN
  have hN1 := hle _ ⟨true, true⟩ hN0
  have hN2 := hle _ ⟨true, false⟩ hN1
  have hN3 := hle _ ⟨false, true⟩ hN2
  have h1 := exchange (e := ⟨true, true⟩) (t := t) h ht (by simpa using hread 0 le_rfl (by omega)) hk hN0 hN
  have h2 := exchange (e := ⟨true, false⟩) (t := t + 1) h1 (fun _ => by omega) (hread 1 (by omega) (by omega)) hk hN1 hN
  have h3 := exchange (e := ⟨false, true⟩) (t := t + 2) h2 (fun _ => by omega) (hread 2 (by omega) (by omega)) hk hN2 hN
  have h4 := exchange (e := ⟨false, false⟩) (t := t + 3) h3 (fun _ => by omega) (hread 3 (by omega) (by omega)) hk hN3 hN
  have hsent : update (update (update (update (fun _ : End => n) ⟨true, true⟩ (n + 1)) ⟨true, false⟩ (n + 1))
      ⟨false, true⟩ (n + 1)) ⟨false, false⟩ (n + 1) = fun _ => n + 1 := by
    funext ⟨a, b⟩
    cases a <;> cases b <;> simp [update]
  have hstamp : update (update (update (update stamp ⟨true, true⟩ t) ⟨true, false⟩ (t + 1))
      ⟨false, true⟩ (t + 2)) ⟨false, false⟩ (t + 3) = roundStamp t := by
    funext ⟨a, b⟩
    cases a <;> cases b <;> simp [update, roundStamp, add_assoc]
  rw [← hsent, ← hstamp]
  exact h4

end

def ends : List End := [⟨true, true⟩, ⟨true, false⟩, ⟨false, true⟩, ⟨false, false⟩]

lemma mem_ends (e : End) : e ∈ ends := by
  obtain ⟨n, l⟩ := e
  cases n <;> cases l <;> decide

section

variable {ids : Bool → Identity} {reads : ℤ → Prop} {N : ℕ} {s s' : State} {evs : List Event}

def runAll (ids : Bool → Identity) (reads : ℤ → Prop) [DecidablePred reads] (N : ℕ) : State → List Event → Option State
  | s, [] => some s
  | s, ev :: evs =>
    match s.step ids ev with
    | none => none
    | some s' => if (∀ t ∈ ev.reading, reads t) ∧ ∀ e ∈ ends, s'.sent e ≤ N then runAll ids reads N s' evs else none

lemma Reachable.runAll [DecidablePred reads] (h : Reachable ids reads N s) (hr : runAll ids reads N s evs = some s') :
    Reachable ids reads N s' := by
  induction evs generalizing s with
  | nil =>
    cases hr
    exact h
  | cons ev evs ih =>
    rw [Net.runAll] at hr
    cases hs : s.step ids ev with
    | none => simp [hs] at hr
    | some s1 =>
      simp only [hs] at hr
      split_ifs at hr with hN
      exact ih (h.step hs hN.1 fun e => hN.2 e (mem_ends e)) hr

lemma Reachable.mono {M : ℕ} (h : Reachable ids reads N s) (hNM : N ≤ M) : Reachable ids reads M s := by
  induction h with
  | start peerAddr clock => exact .start peerAddr clock
  | step _ hs hr hN ih => exact ih.step hs hr fun e => (hN e).trans hNM

end

structure EndView where
  peer : Peer
  wire : List Message
  sent : ℕ
  told : Bool
  deriving DecidableEq

structure StateView where
  ends : List EndView
  clocks : ℤ × ℤ
  deriving DecidableEq

def view (s : State) : StateView :=
  ⟨ends.map fun e => ⟨s.peer e, s.wire e, s.sent e, s.told e⟩, s.clock true, s.clock false⟩

lemma view_injective : Injective view := by
  intro s s' h
  simp only [view, ends, map_cons, map_nil, StateView.mk.injEq, EndView.mk.injEq, Prod.mk.injEq,
    cons.injEq] at h
  ext1
  · funext ⟨n, l⟩
    cases n <;> cases l <;> simp [h]
  · funext ⟨n, l⟩
    cases n <;> cases l <;> simp [h]
  · funext n
    cases n <;> simp [h]
  · funext ⟨n, l⟩
    cases n <;> cases l <;> simp [h]
  · funext ⟨n, l⟩
    cases n <;> cases l <;> simp [h]

def openingStamp : End → ℤ
  | ⟨true, true⟩ => 1
  | ⟨false, true⟩ => 10
  | ⟨false, false⟩ => 1
  | ⟨true, false⟩ => 3

def opening : List Event :=
  [.connected ⟨false, false⟩ (reading 1), .connected ⟨true, true⟩ (reading 1), .deliver ⟨false, true⟩ (reading 10),
    .deliver ⟨true, true⟩ (reading 2), .deliver ⟨true, false⟩ (reading 3), .deliver ⟨false, false⟩ (reading 11)]

lemma opened : Reachable plain Addable 65537 (caughtUp (fun _ => 1) openingStamp (fun n => if n then 3 else 11)) := by
  have hrun : (runAll plain Addable 65537 (.start (fun _ => "host:9876") (fun _ => 0)) opening).map view =
      some (view (caughtUp (fun _ => 1) openingStamp (fun n => if n then 3 else 11))) := by decide +kernel
  obtain ⟨s, hs, hview⟩ := Option.map_eq_some_iff.mp hrun
  rw [← view_injective hview]
  exact (Reachable.start _ _).runAll hs

lemma rounds (n : ℕ) (hn : 2 ≤ n) (hle : n ≤ 65536) :
    Reachable plain Addable 65537 (caughtUp (fun _ => n) (roundStamp (10 * n)) (fun _ => 10 * n + 3)) := by
  have hgen : ∀ k : ℕ, 2 ≤ k → k ≤ 65536 → BitVec.ofNat 16 k ≠ 1 := by
    intro k hk hk' h
    have hmod : k % 65536 = 1 := by simpa using congrArg BitVec.toNat h
    omega
  induction n, hn using Nat.le_induction with
  | base => exact exchange_round opened (by intro m; cases m <;> decide) (by decide) (hgen 2 (by omega) (by omega)) (by omega)
  | succ n hn ih =>
    refine exchange_round (ih (by omega)) ?_ ?_ (hgen (n + 1) (by omega) hle) (by omega)
    · intro m
      push_cast
      omega
    · push_cast
      omega

def race : List Event :=
  [.sendHandshake ⟨true, true⟩ (reading 655370), .sendHandshake ⟨true, false⟩ (reading 655371),
    .sendHandshake ⟨false, true⟩ (reading 655370), .sendHandshake ⟨false, false⟩ (reading 655371),
    .deliver ⟨false, true⟩ (reading 655372), .deliver ⟨true, false⟩ (reading 655372)]

lemma raced : ∃ s, Reachable plain Addable 65537 s ∧ s.told ⟨false, true⟩ = true ∧ s.told ⟨true, false⟩ = true := by
  have hrun : (runAll plain Addable 65537 (caughtUp (fun _ => 65536) (roundStamp 655360) (fun _ => 655363)) race).map
      (fun s => (s.told ⟨false, true⟩, s.told ⟨true, false⟩)) = some (true, true) := by decide +kernel
  obtain ⟨s, hs, hview⟩ := Option.map_eq_some_iff.mp hrun
  obtain ⟨htrue, hfalse⟩ := Prod.mk.inj hview
  exact ⟨s, (rounds 65536 (by omega) (by omega)).runAll hs, htrue, hfalse⟩

theorem one_connection_kept_iff (N : ℕ) :
    (∀ ids s, Reachable ids Addable N s → Kept s true ∨ Kept s false) ↔ N ≤ 65536 := by
  constructor
  · intro h
    by_contra hN
    obtain ⟨s, hs, htrue, hfalse⟩ := raced
    obtain hkept | hkept := h plain s (hs.mono (by omega))
    · simp [hkept.2] at htrue
    · simp [hkept.1] at hfalse
  · intro hN ids s h
    exact h.kept hN

def overflowing : List Event :=
  [.connected ⟨false, false⟩ (reading (2 ^ 62)), .connected ⟨true, true⟩ (reading (2 ^ 62 - 10)),
    .deliver ⟨false, true⟩ (reading (2 ^ 62 + 1)), .deliver ⟨true, false⟩ (reading (2 ^ 62 - 1)),
    .sendHandshake ⟨true, false⟩ (reading (2 ^ 62)), .deliver ⟨true, true⟩ (reading (2 ^ 62 + 1)),
    .deliver ⟨false, false⟩ (reading (2 ^ 62 + 2))]

lemma overflowed : ∃ s, Reachable plain IsInt64 2 s ∧ s.told ⟨true, true⟩ = true ∧ s.told ⟨false, false⟩ = true := by
  have hrun : (runAll plain IsInt64 2 (.start (fun _ => "host:9876") (fun _ => 0)) overflowing).map
      (fun s => (s.told ⟨true, true⟩, s.told ⟨false, false⟩)) = some (true, true) := by decide +kernel
  obtain ⟨s, hs, hview⟩ := Option.map_eq_some_iff.mp hrun
  obtain ⟨htrue, hfalse⟩ := Prod.mk.inj hview
  exact ⟨s, (Reachable.start _ _).runAll hs, htrue, hfalse⟩

theorem both_connections_told :
    (¬ ∀ s, Reachable plain Addable 65537 s → Kept s true ∨ Kept s false) ∧
    ¬ ∀ s, Reachable plain IsInt64 2 s → Kept s true ∨ Kept s false := by
  constructor
  · intro h
    obtain ⟨s, hs, htrue, hfalse⟩ := raced
    obtain hkept | hkept := h s hs
    · simp [hkept.2] at htrue
    · simp [hkept.1] at hfalse
  · intro h
    obtain ⟨s, hs, htrue, hfalse⟩ := overflowed
    obtain hkept | hkept := h s hs
    · simp [hkept.1] at htrue
    · simp [hkept.2] at hfalse

end XosChain.Net
