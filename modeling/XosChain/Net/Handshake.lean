import Mathlib.Data.Int.Order.Basic
import Mathlib.Tactic

namespace XosChain.Net

open Function

inductive GoAwayReason where
  | noReason
  | self
  | duplicate
  | wrongChain
  | wrongVersion
  | forked
  | unlinkable
  | badTransaction
  | validation
  | benignOther
  | fatalOther
  | authentication
  deriving DecidableEq

structure HandshakeMessage where
  networkVersion : ℕ := 0
  chainId : ℕ := 0
  nodeId : ℕ := 0
  time : ℤ := 0
  token : ℕ := 0
  sig : ℕ := 0
  p2pAddress : String := ""
  lastIrreversibleBlockNum : ℕ := 0
  headNum : ℕ := 0
  os : String := ""
  generation : BitVec 16 := 0
  deriving DecidableEq

inductive Message where
  | handshake (msg : HandshakeMessage)
  | goAway (reason : GoAwayReason)
  deriving DecidableEq

structure Peer where
  isOpen : Bool := true
  connecting : Bool := true
  peerAddr : String := ""
  nodeId : ℕ := 0
  protocolVersion : ℕ := 0
  lastHandshakeRecv : HandshakeMessage := {}
  lastHandshakeSent : HandshakeMessage := {}
  sentHandshakeCount : BitVec 16 := 0
  noRetry : GoAwayReason := .noReason
  deriving DecidableEq

namespace Peer

def connected (c : Peer) : Bool := c.isOpen && !c.connecting

def peerName (c : Peer) : String :=
  if c.lastHandshakeRecv.p2pAddress ≠ "" then c.lastHandshakeRecv.p2pAddress
  else if c.peerAddr ≠ "" then c.peerAddr
  else "connecting client"

def close (c : Peer) : Peer :=
  { c with
    isOpen := false
    connecting := false
    sentHandshakeCount := 0
    lastHandshakeRecv := {}
    lastHandshakeSent := {} }

end Peer

def netVersionBase : ℕ := 0x04b5
def netVersionRange : ℕ := 106
def netVersion : ℕ := 1

def toProtocolVersion (v : ℕ) : ℕ :=
  if netVersionBase ≤ v then
    if netVersionRange < v - netVersionBase then 0 else v - netVersionBase
  else 0

structure Identity where
  nodeId : ℕ
  chainId : ℕ
  p2pAddress : String
  shortId : String
  os : String
  networkVersionMatch : Bool := false
  hash : ℤ → ℕ
  sign : ℕ → ℕ

structure View where
  time : ℤ
  headNum : ℕ := 0
  lastIrreversibleBlockNum : ℕ := 0
  authenticated : Bool := true
  onFork : Bool := false

namespace Identity

variable (node : Identity)

def name : String := node.p2pAddress ++ " - " ++ node.shortId

def populate (v : View) : HandshakeMessage where
  networkVersion := netVersionBase + netVersion
  chainId := node.chainId
  nodeId := node.nodeId
  time := v.time
  token := if node.sign (node.hash v.time) = 0 then 0 else node.hash v.time
  sig := node.sign (node.hash v.time)
  p2pAddress := node.name
  lastIrreversibleBlockNum := v.lastIrreversibleBlockNum
  headNum := v.headNum
  os := node.os

def isValid (msg : HandshakeMessage) : Bool :=
  decide (msg.lastIrreversibleBlockNum ≤ msg.headNum) && decide (msg.p2pAddress ≠ "") && decide (msg.os ≠ "") &&
    !(decide (msg.sig ≠ 0 ∨ msg.token ≠ 0) && decide (msg.token ≠ node.hash msg.time))

def hello (c : Peer) (v : View) : HandshakeMessage :=
  { node.populate v with generation := c.sentHandshakeCount + 1 }

def sendHandshake (c : Peer) (v : View) : Peer :=
  { c with lastHandshakeSent := node.hello c v, sentHandshakeCount := c.sentHandshakeCount + 1 }

def tstampSum (t t' : ℤ) : ℤ := (t + t').bmod (2 ^ 64)

def isDuplicate (c check : Peer) (msg : HandshakeMessage) : Bool :=
  check.connected && decide (check.peerName = msg.p2pAddress) &&
    !decide (tstampSum msg.time c.lastHandshakeSent.time ≤
      tstampSum check.lastHandshakeSent.time check.lastHandshakeRecv.time)

def checksDuplicate (c : Peer) : Bool := decide (c.peerAddr = "") || decide (c.lastHandshakeRecv.nodeId = 0)

def accept (c : Peer) (msg : HandshakeMessage) : Peer := { c with lastHandshakeRecv := msg }

def handleFirst (c : Peer) (msg : HandshakeMessage) (v : View) : Peer × List Message :=
  if msg.chainId ≠ node.chainId then (c, [.goAway .wrongChain])
  else
    let c := { c with protocolVersion := toProtocolVersion msg.networkVersion }
    if c.protocolVersion ≠ netVersion ∧ node.networkVersionMatch = true then (c, [.goAway .wrongVersion])
    else
      let c := { c with nodeId := msg.nodeId }
      if v.authenticated = false then (c, [.goAway .authentication])
      else if v.onFork = true then (c, [.goAway .forked])
      else if c.sentHandshakeCount = 0 then
        (accept (node.sendHandshake c v) msg, [.handshake (node.hello c v)])
      else (accept c msg, [])

def handleHandshake (c check : Peer) (msg : HandshakeMessage) (v : View) : Peer × List Message :=
  if node.isValid msg = false then (c, [.goAway .fatalOther])
  else
    let c := { c with connecting := false }
    if msg.generation = 1 then
      if msg.nodeId = node.nodeId then (c, [.goAway .self])
      else if checksDuplicate c = true ∧ isDuplicate c check msg = true then
        ({ c with noRetry := .duplicate }, [.goAway .duplicate])
      else node.handleFirst c msg v
    else (accept c msg, [])

end Identity

structure End where
  node : Bool
  link : Bool
  deriving DecidableEq

namespace End

def far (e : End) : End := ⟨!e.node, e.link⟩
def beside (e : End) : End := ⟨e.node, !e.link⟩
def opener (e : End) : Bool := e.node == e.link

@[simp] lemma far_node (e : End) : e.far.node = !e.node := rfl
@[simp] lemma far_far (e : End) : e.far.far = e := by simp [far]
@[simp] lemma beside_beside (e : End) : e.beside.beside = e := by simp [beside]
lemma far_beside (e : End) : e.far.beside = e.beside.far := rfl

@[simp] lemma far_ne (e : End) : e.far ≠ e := by
  intro h
  simpa [far] using congrArg End.node h
@[simp] lemma beside_ne (e : End) : e.beside ≠ e := by
  intro h
  simpa [beside] using congrArg End.link h
@[simp] lemma beside_far_ne (e : End) : e.beside.far ≠ e := by
  intro h
  simpa [beside, far] using congrArg End.link h
@[simp] lemma opener_far (e : End) : e.far.opener = !e.opener := by
  obtain ⟨n, l⟩ := e
  cases n <;> cases l <;> rfl
@[simp] lemma opener_beside (e : End) : e.beside.opener = !e.opener := by
  obtain ⟨n, l⟩ := e
  cases n <;> cases l <;> rfl

end End

@[ext]
structure State where
  peer : End → Peer
  wire : End → List Message := fun _ => []
  clock : Bool → ℤ
  sent : End → ℕ := fun _ => 0
  told : End → Bool := fun _ => false

inductive Event where
  | connected (e : End) (v : View)
  | sendHandshake (e : End) (v : View)
  | deliver (e : End) (v : View)
  | close (e : End)
  | lose (e : End) (kept : ℕ)

def Event.reading : Event → Option ℤ
  | .connected _ v | .sendHandshake _ v | .deliver _ v => some v.time
  | .close _ | .lose _ _ => none

namespace State

def setPeer (s : State) (e : End) (c : Peer) : State := { s with peer := update s.peer e c }

def setWire (s : State) (e : End) (ms : List Message) : State := { s with wire := update s.wire e ms }

def tick (s : State) (n : Bool) (t : ℤ) : State := { s with clock := update s.clock n t }

def enqueue (s : State) (e : End) (m : Message) : State :=
  { s with
    wire := update s.wire e (s.wire e ++ [m])
    sent := match m with
      | .handshake _ => update s.sent e (s.sent e + 1)
      | .goAway _ => s.sent
    told := match m with
      | .goAway .duplicate => update s.told e true
      | _ => s.told }

def enqueueAll (s : State) (e : End) (ms : List Message) : State := ms.foldl (·.enqueue e ·) s

def send (ids : Bool → Identity) (s : State) (e : End) (v : View) : State :=
  ((s.tick e.node v.time).setPeer e ((ids e.node).sendHandshake (s.peer e) v)).enqueue e
    (.handshake ((ids e.node).hello (s.peer e) v))

def receive (ids : Bool → Identity) (s : State) (e : End) (v : View) : Message → State
  | .goAway reason => s.setPeer e (Peer.close { s.peer e with noRetry := reason })
  | .handshake msg =>
    let r := (ids e.node).handleHandshake (s.peer e) (s.peer e.beside) msg v
    ((s.tick e.node v.time).setPeer e r.1).enqueueAll e r.2

def step (ids : Bool → Identity) (s : State) : Event → Option State
  | .connected e v =>
    if e.opener = true ∧ (s.peer e).isOpen = true ∧ (s.peer e).connecting = true ∧
        (s.peer e).sentHandshakeCount = 0 ∧ s.clock e.node < v.time then
      some (s.send ids e v)
    else none
  | .sendHandshake e v =>
    if (s.peer e).connected = true ∧ s.clock e.node < v.time then some (s.send ids e v) else none
  | .deliver e v =>
    match s.wire e.far with
    | [] => none
    | m :: rest =>
      if (s.peer e).isOpen = true ∧ s.clock e.node < v.time then
        some ((s.setWire e.far rest).receive ids e v m)
      else none
  | .close e => some (s.setPeer e (s.peer e).close)
  | .lose e kept => if (s.peer e).isOpen = false then some (s.setWire e ((s.wire e).take kept)) else none

def start (peerAddr : Bool → String) (clock : Bool → ℤ) : State where
  peer e := { peerAddr := if e.opener = true then peerAddr e.node else "" }
  clock

end State

inductive Reachable (ids : Bool → Identity) (reads : ℤ → Prop) (N : ℕ) : State → Prop
  | start (peerAddr : Bool → String) (clock : Bool → ℤ) : Reachable ids reads N (.start peerAddr clock)
  | step {s s' : State} {ev : Event} (h : Reachable ids reads N s) (hs : s.step ids ev = some s')
      (hr : ∀ t ∈ ev.reading, reads t) (hN : ∀ e, s'.sent e ≤ N) : Reachable ids reads N s'

def IsInt64 (t : ℤ) : Prop := -2 ^ 63 ≤ t ∧ t < 2 ^ 63

instance : DecidablePred IsInt64 := fun _ => inferInstanceAs (Decidable (_ ∧ _))

def Addable (t : ℤ) : Prop := -2 ^ 62 ≤ t ∧ t < 2 ^ 62

instance : DecidablePred Addable := fun _ => inferInstanceAs (Decidable (_ ∧ _))

end XosChain.Net
