import XosChain.Controller.HeaderAgreement

namespace XosChain.Producers

open Lib Header Header.BlockHeaderState Controller

inductive PendingBlockMode where
  | producing
  | speculating
  deriving DecidableEq

abbrev SignatureProviders := PublicKey → Option (Digest → Result Signature)

structure Settings where
  producers : List AccountName
  startTime : ℕ := 0

structure Watch where
  producerWatermarks : FlatMap AccountName ℕ := FlatMap.empty
  lastSignedBlockTime : ℕ := 0
  lastSignedBlockNum : ℕ := 0

def blockIntervalUs : ℕ := 500000

def toTimePoint (slot : Slot) : ℕ := 1000 * (946684800000 + 500 * slot)

def fromTimePoint (t : ℕ) : Slot := (t / 1000 + (2 ^ 64 - 946684800000)) % 2 ^ 64 / 500 % 2 ^ 32

def ofResult {σ α : Type} (r : Result α) : EStateM Thrown σ α := fun s =>
  match r with
  | .ok a => .ok a s
  | .error e => .error e s

section

variable (c : Crypto) (settings : Settings) (providers : SignatureProviders) (bsp : BlockHeaderState)

def isActive (schedule : ProducerSchedule) (producer : AccountName) : Bool :=
  schedule.producers.any fun k => k.producerName = producer

def confirmBlock (producer : AccountName) : EStateM Thrown Watch Unit :=
  if producer ≠ bsp.header.producer then
    match bsp.activeSchedule.producers.find? (fun k => k.producerName = producer) with
    | some k =>
      match providers k.blockSigningKey with
      | some provider => do
        let _ ← ofResult (provider (bsp.sigDigest c))
        modify fun w =>
          { w with lastSignedBlockTime := toTimePoint bsp.header.timestamp, lastSignedBlockNum := bsp.blockNum }
      | none => pure ()
    | none => pure ()
  else pure ()

def newProducers : Result (List AccountName) := do
  eosAssert (bsp.header.timestamp + 1 < 2 ^ 32) .overflowException "block timestamp overflow"
  let newBs ← bsp.generateNext c (bsp.header.timestamp + 1)
  if newBs.promotes ∧ bsp.activeSchedule.version ≠ newBs.maybePromotePending.activeSchedule.version then
    pure ((newBs.maybePromotePending.activeSchedule.producers.map ProducerKey.producerName).filter fun p =>
      p ∈ settings.producers ∧ isActive bsp.activeSchedule p = false)
  else pure []

def setWatermarks (producers : List AccountName) (m : FlatMap AccountName ℕ) : FlatMap AccountName ℕ :=
  producers.foldl (fun m p => m.set p bsp.blockNum) m

def onBlock : EStateM Thrown Watch Unit := do
  let w ← get
  if bsp.header.timestamp ≤ fromTimePoint w.lastSignedBlockTime ∨
      bsp.header.timestamp ≤ fromTimePoint settings.startTime ∨ bsp.blockNum ≤ w.lastSignedBlockNum then pure ()
  else do
    (settings.producers.filter (isActive bsp.activeSchedule)).forM (confirmBlock c providers bsp)
    let installed ← ofResult (newProducers c settings bsp)
    modify fun w => { w with producerWatermarks := setWatermarks bsp installed w.producerWatermarks }

def emitAcceptedBlock (w : Watch) : Watch :=
  match onBlock c settings providers bsp w with
  | .ok _ w' => w'
  | .error _ w' => w'

end

structure Producer where
  head : BlockHeaderState
  older : List BlockHeaderState := []
  pending : Option BlockHeaderState := none
  pendingBlockMode : PendingBlockMode := .speculating
  watch : Watch := {}
  signed : List BlockHeaderState := []

namespace Producer

def advance (n : Producer) (s : BlockHeaderState) : Producer := { n with head := s, older := n.head :: n.older }

section

variable (c : Crypto) (settings : Settings) (providers : SignatureProviders) (n : Producer)

def applyBlock (h : SignedBlockHeader) : Result Producer := do
  let s ← n.head.next c h false
  pure { n.advance s with pending := none, watch := emitAcceptedBlock c settings providers s n.watch }

def popBlock : Producer :=
  match n.older with
  | p :: older => { n with head := p, older, pending := none }
  | [] => { n with pending := none }

end

structure Conditions where
  now : ℕ
  readOnly : Bool := false
  productionEnabled : Bool := true
  pauseProduction : Bool := false
  irreversibleBlockTooOld : Bool := false
  headBlockTooOld : Bool := false
  proposed : Option ProducerSchedule := none
  fault : Option Thrown := none

def calculatePendingBlockTime (now : ℕ) (head : BlockHeaderState) : ℕ :=
  let base := max now (toTimePoint head.header.timestamp)
  let blockTime := base + (blockIntervalUs - base % blockIntervalUs)
  if blockTime - now < blockIntervalUs / 10 then blockTime + blockIntervalUs else blockTime

def pendingSlot (now : ℕ) (head : BlockHeaderState) : Slot := fromTimePoint (calculatePendingBlockTime now head)

section

variable (c : Crypto) (settings : Settings) (providers : SignatureProviders)

def wantedMode (x : Conditions) (scheduled : ProducerKey) (watermark : Option ℕ) (headBlockNum : ℕ) :
    PendingBlockMode :=
  if x.productionEnabled = false then .speculating
  else if scheduled.producerName ∉ settings.producers then .speculating
  else if providers scheduled.blockSigningKey = none then .speculating
  else if x.pauseProduction then .speculating
  else if x.irreversibleBlockTooOld then .speculating
  else if ∃ w ∈ watermark, w ≥ headBlockNum + 1 then .speculating
  else .producing

def blocksToConfirm (mode : PendingBlockMode) (watermark : Option ℕ) (headBlockNum : ℕ) : ℕ :=
  match mode, watermark with
  | .producing, some w => if w < headBlockNum then min (2 ^ 16 - 1) ((headBlockNum - w) % 2 ^ 16) else 0
  | _, _ => 0

def controllerStartBlock (x : Conditions) (head : BlockHeaderState) (slot : Slot) (confirmed : ℕ) :
    Result BlockHeaderState :=
  match x.fault with
  | some e => throw e
  | none => startState c announcing head slot confirmed x.proposed

def startBlock (x : Conditions) (n : Producer) : Producer :=
  let slot := pendingSlot x.now n.head
  let scheduled := n.head.getScheduledProducer slot
  let watermark := n.watch.producerWatermarks.find? scheduled.producerName
  let mode := wantedMode settings providers x scheduled watermark n.head.blockNum
  if x.readOnly then n
  else if mode = .speculating ∧ x.headBlockTooOld then { n with pendingBlockMode := mode }
  else
    match controllerStartBlock c x n.head slot (blocksToConfirm mode watermark n.head.blockNum) with
    | .error _ => { n with pendingBlockMode := mode, pending := none }
    | .ok p =>
      { n with
        pendingBlockMode := if p.blockSigningKey = scheduled.blockSigningKey then mode else .speculating
        pending := some p }

structure Outcome where
  actionMroot : Digest := 0
  transactionMroot : Digest := 0
  finalize : Option Thrown := none
  commit : Option (Thrown × Bool) := none

def pendingProvider (n : Producer) : Result (BlockHeaderState × (Digest → Result Signature)) :=
  match n.pending with
  | none => throw ⟨.missingPendingBlockState, "pending_block_state does not exist but it should, another plugin may have corrupted it"⟩
  | some p =>
    match providers p.blockSigningKey with
    | none => throw ⟨.producerPrivKeyNotFound, "Attempting to produce a block for which we don't have the private key"⟩
    | some provider => pure (p, provider)

def raised : Option Thrown → Result Unit
  | some e => throw e
  | none => pure ()

def signPending (o : Outcome) (n : Producer) : Result BlockHeaderState := do
  eosAssert (n.pendingBlockMode = .producing) .producerException "called produce_block while not actually producing"
  let (p, provider) ← pendingProvider providers n
  raised o.finalize
  let s := finalizedState c p o.actionMroot o.transactionMroot
  let signature ← provider (s.sigDigest c)
  pure (signedState s signature)

def commitSigned (o : Outcome) (n : Producer) (s : BlockHeaderState) : Producer :=
  if s.blockSigningKey = s.signee c then
    match o.commit with
    | some (_, moved) => if moved then n.advance s else n
    | none =>
      let watch := emitAcceptedBlock c settings providers s n.watch
      { n.advance s with
        watch := { watch with producerWatermarks := watch.producerWatermarks.set s.header.producer s.blockNum } }
  else n

def maybeProduceBlock (o : Outcome) (n : Producer) : Producer :=
  match signPending c providers o n with
  | .error _ => { n with pending := none }
  | .ok s => commitSigned c settings providers o { n with pending := none, signed := s :: n.signed } s

inductive Op where
  | startBlock (x : Conditions)
  | maybeProduceBlock (o : Outcome)
  | applyBlock (h : SignedBlockHeader)
  | popBlock

def step (n : Producer) (op : SignatureProviders × Op) : Producer :=
  match op.2 with
  | .startBlock x => startBlock c settings op.1 x n
  | .maybeProduceBlock o => maybeProduceBlock c settings op.1 o n
  | .applyBlock h =>
    match applyBlock c settings op.1 n h with
    | .ok n' => n'
    | .error _ => { n with pending := none }
  | .popBlock => popBlock n

def run (n : Producer) (ops : List (SignatureProviders × Op)) : Producer := ops.foldl (step c settings) n

end

end Producer

end XosChain.Producers
