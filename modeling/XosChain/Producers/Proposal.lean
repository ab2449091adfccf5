import XosChain.Controller.HeaderAgreement

namespace XosChain.Producers

open Header Header.BlockHeaderState

structure GlobalProperty where
  proposedScheduleBlockNum : Option ℕ := none
  proposedSchedule : ProducerSchedule := {}
  deriving DecidableEq

structure Block where
  state : BlockHeaderState
  gpo : GlobalProperty := {}
  deriving DecidableEq

def Block.current (b : Block) : ProducerSchedule :=
  if b.state.pendingSchedule.producers.length = 0 then b.state.activeSchedule else b.state.pendingSchedule

structure Node where
  head : Block
  older : List Block := []
  revision : ℕ
  pending : Option Block := none
  deriving DecidableEq

namespace Node

def blocks (n : Node) : List Block := n.pending.toList ++ n.head :: n.older

def genesis (c : Crypto) (initialKey : PublicKey) (initialTimestamp : Slot) (chainId : Digest) : Node :=
  let state := BlockHeaderState.genesis c initialKey initialTimestamp chainId
  { head := { state }, revision := state.blockNum }

end Node

def promoteProposed (c : Crypto) (wasPendingPromoted : Bool) (b : Block) : Result Block :=
  if (∃ num ∈ b.gpo.proposedScheduleBlockNum, num ≤ b.state.dposIrreversibleBlocknum) ∧
      b.state.pendingSchedule.producers.length = 0 ∧ wasPendingPromoted = false then do
    let state ← b.state.setNewProducers c b.gpo.proposedSchedule
    pure { state, gpo := {} }
  else pure b

def startOn (c : Crypto) (head : Block) (wanted : Slot) (confirmBlockCount : ℕ) : Result Block := do
  let template ← head.state.generateNext c wanted
  let confirmed := template.setConfirmed confirmBlockCount
  promoteProposed c confirmed.promotes ⟨confirmed.maybePromotePending, head.gpo⟩

def startBlock (c : Crypto) (n : Node) (wanted : Slot) (confirmBlockCount : ℕ) : Result Node := do
  eosAssert (n.pending = none) .blockValidateException "pending block already exists"
  eosAssert (n.revision = n.head.state.blockNum % 2 ^ 32) .databaseException "db revision is not on par with head block"
  let block ← startOn c n.head wanted confirmBlockCount
  pure { n with pending := some block, revision := n.revision + 1 }

def setProposedProducers (headBlockNum : ℕ) (producers : List ProducerKey) (b : Block) : ℤ × Block :=
  let curBlockNum := headBlockNum + 1
  if ∃ num ∈ b.gpo.proposedScheduleBlockNum, num ≠ curBlockNum ∨ producers = b.gpo.proposedSchedule.producers then
    (-1, b)
  else if producers = b.current.producers then (-1, b)
  else
    let version : ℕ := (b.current.version + 1) % 2 ^ 32
    (version, { b with gpo := ⟨some curBlockNum, ⟨version, producers⟩⟩ })

structure Request where
  isAccount : AccountName → Bool
  validKey : PublicKey → Bool
  producers : List ProducerKey

def Request.check (r : Request) : Result Unit := do
  eosAssert (r.producers.length ≤ Config.maxProducers) .wasmExecutionError
    "Producer schedule exceeds the maximum producer count for this chain"
  r.producers.forM fun p => do
    eosAssert (r.isAccount p.producerName) .wasmExecutionError "producer schedule includes a nonexisting account"
    eosAssert (r.validKey p.blockSigningKey) .wasmExecutionError "producer schedule includes an invalid key"
  eosAssert (r.producers.length = (r.producers.map ProducerKey.producerName).dedup.length) .wasmExecutionError
    "duplicate producer name in producer schedule"

def Request.apply (headBlockNum : ℕ) (b : Block) (r : Request) : Result Block := do
  r.check
  pure (setProposedProducers headBlockNum r.producers b).2

def pendingBlock (n : Node) (e : Thrown := ⟨.undefinedBehavior, "no pending block"⟩) : Result Block :=
  match n.pending with
  | some b => pure b
  | none => throw e

def pushTransaction (n : Node) (requests : List Request) (failure : Option Thrown) : Result Node := do
  let b ← pendingBlock n
  let b ← requests.foldlM (Request.apply n.head.state.blockNum) b
  match failure with
  | some e => throw e
  | none => pure { n with pending := some b }

def finalizeBlock (c : Crypto) (n : Node) (actionMroot transactionMroot : Digest) : Result Node := do
  let b ← pendingBlock n ⟨.blockValidateException, "it is not valid to finalize when there is no pending block"⟩
  pure { n with pending := some { b with state := Controller.finalizedState c b.state actionMroot transactionMroot } }

def signBlock (n : Node) (producerSignature : Signature) : Result Node := do
  let b ← pendingBlock n
  pure { n with pending := some { b with state := Controller.signedState b.state producerSignature } }

def commitBlock (n : Node) : Result Node := do
  let b ← pendingBlock n
  pure { n with head := b, older := n.head :: n.older, pending := none }

def abortBlock (n : Node) : Node :=
  match n.pending with
  | some _ => { n with pending := none, revision := n.revision - 1 }
  | none => n

inductive Op where
  | startBlock (wanted : Slot) (confirmBlockCount : ℕ)
  | pushTransaction (requests : List Request) (failure : Option Thrown)
  | finalizeBlock (actionMroot transactionMroot : Digest)
  | signBlock (producerSignature : Signature)
  | commitBlock
  | abortBlock

def exec (c : Crypto) (n : Node) : Op → Result Node
  | .startBlock wanted confirmBlockCount => startBlock c n wanted confirmBlockCount
  | .pushTransaction requests failure => pushTransaction n requests failure
  | .finalizeBlock actionMroot transactionMroot => finalizeBlock c n actionMroot transactionMroot
  | .signBlock producerSignature => signBlock n producerSignature
  | .commitBlock => commitBlock n
  | .abortBlock => pure (abortBlock n)

def step (c : Crypto) (n : Node) (op : Op) : Node :=
  match exec c n op with
  | .ok n' => n'
  | .error _ => n

def run (c : Crypto) (n : Node) (ops : List Op) : Node := ops.foldl (step c) n

end XosChain.Producers
