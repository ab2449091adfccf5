import XosChain.Header.BlockHeader
import XosChain.Lib.FlatMap
import XosChain.Lib.OrderStatistic

namespace XosChain.Header

open Lib Config FlatMap

structure BlockHeaderState where
  id : BlockId := 0
  blockNum : ℕ := 0
  header : SignedBlockHeader := {}
  dposProposedIrreversibleBlocknum : ℕ := 0
  dposIrreversibleBlocknum : ℕ := 0
  bftIrreversibleBlocknum : ℕ := 0
  pendingScheduleLibNum : ℕ := 0
  pendingScheduleHash : Digest := 0
  pendingSchedule : ProducerSchedule := {}
  activeSchedule : ProducerSchedule := {}
  blockrootMerkle : IncrementalMerkle := {}
  producerToLastProduced : FlatMap AccountName ℕ := empty
  producerToLastImpliedIrb : FlatMap AccountName ℕ := empty
  blockSigningKey : PublicKey := 0
  confirmCount : List ℕ := []
  confirmations : List HeaderConfirmation := []
  deriving DecidableEq, Inhabited

namespace BlockHeaderState

def getScheduledProducer (s : BlockHeaderState) (t : Slot) : ProducerKey :=
  let index := t % (s.activeSchedule.producers.length * producerRepetitions)
  s.activeSchedule.producers.getD (index / producerRepetitions) default

def calcDposLastIrreversible (irb : FlatMap AccountName ℕ) : ℕ :=
  (orderStatistic ((irb.size - 1) / 3) irb.values).getD 0

def requiredConfs (schedule : ProducerSchedule) : ℕ := schedule.producers.length * 2 / 3 + 1

def growConfirmCount (confirmCount : List ℕ) (required : ℕ) : List ℕ :=
  if confirmCount.length < maximumTrackedDposConfirmations then confirmCount ++ [required % 2 ^ 8]
  else confirmCount.tail ++ [required % 2 ^ 8]

def nextSlot (s : BlockHeaderState) (wanted : Slot) : Result Slot :=
  if wanted ≠ 0 then do
    eosAssert (wanted > s.header.timestamp) .blockValidateException "next block must be in the future"
    pure wanted
  else pure ((s.header.timestamp + 1) % 2 ^ 32)

def generateNext (c : Crypto) (s : BlockHeaderState) (wanted : Slot) : Result BlockHeaderState := do
  let slot ← s.nextSlot wanted
  let prokey := s.getScheduledProducer slot
  let irb := s.producerToLastImpliedIrb.set prokey.producerName s.dposProposedIrreversibleBlocknum
  pure
    { header :=
        { timestamp := slot
          previous := s.id
          scheduleVersion := s.activeSchedule.version
          producer := prokey.producerName }
      blockSigningKey := prokey.blockSigningKey
      pendingScheduleLibNum := s.pendingScheduleLibNum
      pendingScheduleHash := s.pendingScheduleHash
      blockNum := s.blockNum + 1
      producerToLastProduced := s.producerToLastProduced.set prokey.producerName (s.blockNum + 1)
      blockrootMerkle := s.blockrootMerkle.append c s.id
      activeSchedule := s.activeSchedule
      pendingSchedule := s.pendingSchedule
      dposProposedIrreversibleBlocknum := s.dposProposedIrreversibleBlocknum
      bftIrreversibleBlocknum := s.bftIrreversibleBlocknum
      producerToLastImpliedIrb := irb
      dposIrreversibleBlocknum := calcDposLastIrreversible irb
      confirmCount := growConfirmCount s.confirmCount (requiredConfs s.activeSchedule) }

def decrement (count : ℕ) : ℕ := (count + uint8Max) % 2 ^ 8

def confirmLoop (counts : List ℕ) : ℕ → ℕ → List ℕ × Option ℕ
  | 0, _ => (counts, none)
  | _, 0 => (counts, none)
  | i + 1, blocksToConfirm + 1 =>
    let count := decrement (counts.getD i 0)
    if count = 0 then (counts.drop (i + 1), some i)
    else confirmLoop (counts.set i count) i blocksToConfirm

def setConfirmed (s : BlockHeaderState) (numPrevBlocks : ℕ) : BlockHeaderState :=
  let size := s.confirmCount.length
  let r := confirmLoop s.confirmCount size (numPrevBlocks + 1)
  { s with
    header := { s.header with confirmed := numPrevBlocks }
    confirmCount := r.1
    dposProposedIrreversibleBlocknum :=
      r.2.elim s.dposProposedIrreversibleBlocknum (fun i => s.blockNum - (size - 1 - i)) }

def retain (producers : List ProducerKey) (m : FlatMap AccountName ℕ) (lib : ℕ) : FlatMap AccountName ℕ :=
  producers.foldl (fun acc p => acc.set p.producerName ((m.find? p.producerName).getD lib)) empty

def promotes (s : BlockHeaderState) : Bool :=
  decide (s.pendingSchedule.producers ≠ [] ∧ s.pendingScheduleLibNum ≤ s.dposIrreversibleBlocknum)

def maybePromotePending (s : BlockHeaderState) : BlockHeaderState :=
  if s.promotes then
    { s with
      activeSchedule := s.pendingSchedule
      pendingSchedule := { s.pendingSchedule with producers := [] }
      producerToLastProduced :=
        (retain s.pendingSchedule.producers s.producerToLastProduced s.dposIrreversibleBlocknum).set
          s.header.producer s.blockNum
      producerToLastImpliedIrb :=
        retain s.pendingSchedule.producers s.producerToLastImpliedIrb s.dposIrreversibleBlocknum }
  else s

def setNewProducers (c : Crypto) (s : BlockHeaderState) (pending : ProducerSchedule) :
    Result BlockHeaderState := do
  eosAssert (pending.version = (s.activeSchedule.version + 1) % 2 ^ 32) .producerScheduleException
    "wrong producer schedule version specified"
  eosAssert (s.pendingSchedule.producers.length = 0) .producerScheduleException
    "cannot set new pending producers until last pending is confirmed"
  pure
    { s with
      header := { s.header with newProducers := some pending }
      pendingScheduleHash := c.scheduleDigest pending
      pendingSchedule := pending
      pendingScheduleLibNum := s.blockNum }

def sigDigest (c : Crypto) (s : BlockHeaderState) : Digest :=
  let headerBmroot := c.hashPair (c.headerDigest s.header.toBlockHeader) s.blockrootMerkle.getRoot
  c.hashPair headerBmroot s.pendingScheduleHash

def signee (c : Crypto) (s : BlockHeaderState) : PublicKey :=
  c.recover s.header.producerSignature (s.sigDigest c)

def checkDoubleConfirm (s : BlockHeaderState) (h : SignedBlockHeader) (blockNum : ℕ) : Result Unit :=
  match s.producerToLastProduced.find? h.producer with
  | some last => eosAssert (last < sub32 blockNum h.confirmed) .producerDoubleConfirm
      "producer ${prod} double-confirming known range"
  | none => pure ()

def applyNewProducers (c : Crypto) (s : BlockHeaderState) (promoted : Bool) :
    Option ProducerSchedule → Result BlockHeaderState
  | some pending => do
    eosAssert (promoted = false) .producerScheduleException
      "cannot set pending producer schedule in the same block in which pending was promoted to active"
    s.setNewProducers c pending
  | none => pure s

def fillHeader (c : Crypto) (s : BlockHeaderState) (h : SignedBlockHeader) : BlockHeaderState :=
  let header : SignedBlockHeader :=
    { s.header with
      actionMroot := h.actionMroot
      transactionMroot := h.transactionMroot
      producerSignature := h.producerSignature }
  { s with header, id := header.toBlockHeader.id c }

def complete (c : Crypto) (template : BlockHeaderState) (h : SignedBlockHeader) : Result BlockHeaderState := do
  let confirmed := template.setConfirmed h.confirmed
  let result ← confirmed.maybePromotePending.applyNewProducers c confirmed.promotes h.newProducers
  pure (result.fillHeader c h)

def next (c : Crypto) (s : BlockHeaderState) (h : SignedBlockHeader) (trust : Bool) :
    Result BlockHeaderState := do
  eosAssert (h.timestamp ≠ 0) .blockValidateException ""
  eosAssert (h.headerExtensions.length = 0) .blockValidateException "no supported extensions"
  eosAssert (h.timestamp > s.header.timestamp) .blockValidateException "block must be later in time"
  eosAssert (h.previous = s.id) .unlinkableBlockException "block must link to current state"
  let template ← s.generateNext c h.timestamp
  eosAssert (template.header.producer = h.producer) .wrongProducer "wrong producer specified"
  eosAssert (template.header.scheduleVersion = h.scheduleVersion) .producerScheduleException
    "schedule_version in signed block is corrupted"
  s.checkDoubleConfirm h template.blockNum
  let result ← template.complete c h
  eosAssert (trust ∨ result.blockSigningKey = result.signee c) .wrongSigningKey "block not signed by expected key"
  pure result

def produce (c : Crypto) (s : BlockHeaderState) (h : SignedBlockHeader) : Result BlockHeaderState := do
  let template ← s.generateNext c h.timestamp
  template.complete c h

def addConfirmation (c : Crypto) (s : BlockHeaderState) (conf : HeaderConfirmation) : Result BlockHeaderState := do
  eosAssert (∀ x ∈ s.confirmations, x.producer ≠ conf.producer) .producerDoubleConfirm
    "block already confirmed by this producer"
  let key := s.activeSchedule.getProducerKey conf.producer
  eosAssert (key ≠ 0) .producerNotInSchedule "producer not in current schedule"
  eosAssert (c.recover conf.producerSignature (s.sigDigest c) = key) .wrongSigningKey
    "confirmation not signed by expected key"
  pure { s with confirmations := s.confirmations ++ [conf] }

def genesis (c : Crypto) (initialKey : PublicKey) (initialTimestamp : Slot) (chainId : Digest) : BlockHeaderState :=
  let initialSchedule : ProducerSchedule := ⟨0, [⟨systemAccountName, initialKey⟩]⟩
  let header : SignedBlockHeader := { timestamp := initialTimestamp, actionMroot := chainId }
  { activeSchedule := initialSchedule
    pendingSchedule := initialSchedule
    pendingScheduleHash := c.scheduleDigest initialSchedule
    header
    id := header.toBlockHeader.id c
    blockNum := header.toBlockHeader.blockNum }

structure Forged where
  slot : Slot
  confirmed : ℕ
  newProducers : Option ProducerSchedule

def forge (p : BlockHeaderState) (b : Forged) : SignedBlockHeader :=
  { timestamp := b.slot
    producer := (p.getScheduledProducer b.slot).producerName
    confirmed := b.confirmed
    previous := p.id
    scheduleVersion := p.activeSchedule.version
    newProducers := b.newProducers }

def forgeChain (c : Crypto) (g : BlockHeaderState) (chain : List BlockHeaderState) :
    List Forged → Result (List BlockHeaderState)
  | [] => pure chain
  | b :: blocks => do
    let s ← (chain.headD g).next c ((chain.headD g).forge b) false
    forgeChain c g (s :: chain) blocks

end BlockHeaderState

end XosChain.Header
