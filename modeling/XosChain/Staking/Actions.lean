import XosChain.Token.Ledger

namespace XosChain.Staking

open Lib FlatMap

def stakeAccount : AccountName := 6138663591134630912
def b1Account : AccountName := 4053239664633446400
def refundDelay : ℕ := 3 * 24 * 3600

structure Weights where
  net : Asset
  cpu : Asset
  deriving DecidableEq

structure UserResources extends Weights where
  ramBytes : Int64 := 0
  deriving DecidableEq

structure RefundRequest extends Weights where
  owner : AccountName
  requestTime : ℕ
  deriving DecidableEq

structure VoterInfo where
  staked : Int64 := 0
  proxy : AccountName := 0
  producers : List AccountName := []
  deriving DecidableEq

structure ScheduledRefund where
  owner : AccountName
  delaySec : ℕ
  deriving DecidableEq

structure Tables where
  delband : FlatMap (AccountName ×ₗ AccountName) Weights := empty
  userres : FlatMap AccountName UserResources := empty
  refunds : FlatMap AccountName RefundRequest := empty
  voters : FlatMap AccountName VoterInfo := empty
  scheduled : FlatMap AccountName ScheduledRefund := empty

structure Env extends Token.Env where
  core : SymbolType
  now : ℕ
  activated : Bool := true
  setResourceLimits : AccountName → Int64 → Int64 → Int64 → Result Unit := fun _ _ _ _ => pure ()
  sendDeferred : AccountName → Result Unit := fun _ => pure ()
  validateB1Vesting : Int64 → Result Unit := fun _ => pure ()
  updateVotes : AccountName → AccountName → List AccountName → Result Unit := fun _ _ _ => pure ()

structure InlineTransfer where
  sender : AccountName
  recipient : AccountName
  quantity : Asset
  memo : String

def both (a b : Result Bool) : Result Bool := do
  if ← a then b else pure false

def either (a b : Result Bool) : Result Bool := do
  if ← a then pure true else b

def assertThat (a : Result Bool) (message : String) : Result Unit := do
  eosioAssert ((← a) = true) message

def abs (n : Int64) : Int64 := if n < 0 then -n else n

namespace Env

variable (env : Env)

def zero : Asset := ⟨0, env.core⟩

def addedWeights (net cpu : Asset) : Option Weights → Result Weights
  | none => pure ⟨net, cpu⟩
  | some w => do pure ⟨← w.net.add net, ← w.cpu.add cpu⟩

def changedWeights (which : String) (old : Option Weights) (net cpu : Asset) : Result Weights := do
  let w ← addedWeights net cpu old
  assertThat (env.zero.le w.net) s!"insufficient staked {which}net bandwidth"
  assertThat (env.zero.le w.cpu) s!"insufficient staked {which}cpu bandwidth"
  pure w

def isZero (w : Weights) : Result Bool := both (w.net.eq env.zero) (w.cpu.eq env.zero)

def updateDelegated (t : Tables) (sender receiver : AccountName) (net cpu : Asset) : Result Tables := do
  let w ← env.changedWeights "" (t.delband.find? (toLex (sender, receiver))) net cpu
  if ← env.isZero w then pure { t with delband := t.delband.erase (toLex (sender, receiver)) }
  else pure { t with delband := t.delband.set (toLex (sender, receiver)) w }

def updateTotals (t : Tables) (receiver : AccountName) (net cpu : Asset) : Result Tables := do
  let row := t.userres.find? receiver
  let w ← env.changedWeights "total " (row.map UserResources.toWeights) net cpu
  let ramBytes := row.elim 0 UserResources.ramBytes
  env.setResourceLimits receiver ramBytes w.net.amount w.cpu.amount
  if ← both (env.isZero w) (pure (ramBytes = 0)) then pure { t with userres := t.userres.erase receiver }
  else pure { t with userres := t.userres.set receiver ⟨w, ramBytes⟩ }

def drawn (amount balance : Asset) : Result (Asset × Asset) := do
  let amount ← amount.sub balance
  if ← amount.lt env.zero then pure (env.zero, amount.neg) else pure (amount, env.zero)

def opened (balance : Asset) : Result (Asset × Asset) := do
  if ← balance.lt env.zero then pure (balance.neg, env.zero) else pure (env.zero, balance)

def changedRefund (sender : AccountName) (old : Option RefundRequest) (net cpu : Asset) :
    Result (Option RefundRequest × Weights) :=
  match old with
  | some r => do
    let requestTime := if ← either (net.lt env.zero) (cpu.lt env.zero) then env.now else r.requestTime
    let (netAmount, netBalance) ← env.drawn r.net net
    let (cpuAmount, cpuBalance) ← env.drawn r.cpu cpu
    assertThat (env.zero.le netAmount) "negative net refund amount"
    assertThat (env.zero.le cpuAmount) "negative cpu refund amount"
    if ← env.isZero ⟨netAmount, cpuAmount⟩ then pure (none, ⟨netBalance, cpuBalance⟩)
    else pure (some ⟨⟨netAmount, cpuAmount⟩, r.owner, requestTime⟩, ⟨netBalance, cpuBalance⟩)
  | none => do
    if ← either (net.lt env.zero) (cpu.lt env.zero) then do
      let (netAmount, netBalance) ← env.opened net
      let (cpuAmount, cpuBalance) ← env.opened cpu
      pure (some ⟨⟨netAmount, cpuAmount⟩, sender, env.now⟩, ⟨netBalance, cpuBalance⟩)
    else pure (none, ⟨net, cpu⟩)

def updateRefund (t : Tables) (sender receiver : AccountName) (net cpu : Asset) (transfer : Bool) :
    Result (Tables × Weights) := do
  let isUndelegating : Bool := net.amount + cpu.amount < 0
  let isDelegatingToSelf := !transfer && sender = receiver
  if isDelegatingToSelf || isUndelegating then do
    match ← env.changedRefund sender (t.refunds.find? sender) net cpu with
    | (some row, left) => do
      env.sendDeferred sender
      pure ({ t with
        refunds := t.refunds.set sender row
        scheduled := (t.scheduled.erase sender).set sender ⟨sender, refundDelay⟩ }, left)
    | (none, left) =>
      pure ({ t with refunds := t.refunds.erase sender, scheduled := t.scheduled.erase sender }, left)
  else pure ({ t with scheduled := t.scheduled.erase sender }, ⟨net, cpu⟩)

def payStake (source : AccountName) (left : Weights) : Result (List InlineTransfer) := do
  let transferAmount ← left.net.add left.cpu
  if ← env.zero.lt transferAmount then pure [⟨source, stakeAccount, transferAmount, "stake bandwidth"⟩] else pure []

def settle (t : Tables) (signer sender receiver : AccountName) (net cpu : Asset) (transfer : Bool) :
    Result (Tables × List InlineTransfer) :=
  if stakeAccount ≠ signer then do
    let (t, left) ← env.updateRefund t sender receiver net cpu transfer
    pure (t, ← env.payStake signer left)
  else pure (t, [])

def changedVoter (total : Int64) : Option VoterInfo → VoterInfo
  | none => { staked := total }
  | some v => { v with staked := v.staked + total }

def checkVoter (sender : AccountName) (voter : VoterInfo) : Result Unit := do
  eosioAssert (0 ≤ voter.staked) "stake for voting cannot be negative"
  if sender = b1Account then env.validateB1Vesting voter.staked
  if voter.producers.length ≠ 0 ∨ voter.proxy ≠ 0 then env.updateVotes sender voter.proxy voter.producers

def updateVotingPower (t : Tables) (sender : AccountName) (net cpu : Asset) : Result Tables := do
  let totalUpdate ← net.add cpu
  let voter := changedVoter totalUpdate.amount (t.voters.find? sender)
  env.checkVoter sender voter
  pure { t with voters := t.voters.set sender voter }

def changebw (t : Tables) (signer receiver : AccountName) (net cpu : Asset) (transfer : Bool) :
    Result (Tables × List InlineTransfer) := do
  env.requireAuth signer
  assertThat (either (net.ne env.zero) (cpu.ne env.zero)) "should stake non-zero amount"
  let sum ← net.add cpu
  eosioAssert (abs sum.amount ≥ max (abs net.amount) (abs cpu.amount)) "net and cpu deltas cannot be opposite signs"
  let sender := if transfer then receiver else signer
  let t ← env.updateDelegated t sender receiver net cpu
  let t ← env.updateTotals t receiver net cpu
  let (t, inlines) ← env.settle t signer sender receiver net cpu transfer
  let t ← env.updateVotingPower t sender net cpu
  pure (t, inlines)

def delegatebw (t : Tables) (signer receiver : AccountName) (net cpu : Asset) (transfer : Bool) :
    Result (Tables × List InlineTransfer) := do
  assertThat (cpu.ge env.zero) "must stake a positive amount"
  assertThat (net.ge env.zero) "must stake a positive amount"
  assertThat (do (← net.add cpu).gt env.zero) "must stake a positive amount"
  eosioAssert (transfer = false ∨ signer ≠ receiver) "cannot use transfer flag if delegating to self"
  env.changebw t signer receiver net cpu transfer

def undelegatebw (t : Tables) (signer receiver : AccountName) (net cpu : Asset) :
    Result (Tables × List InlineTransfer) := do
  assertThat (env.zero.le cpu) "must unstake a positive amount"
  assertThat (env.zero.le net) "must unstake a positive amount"
  assertThat (do env.zero.lt (← cpu.add net)) "must unstake a positive amount"
  eosioAssert (env.activated = true) ("cannot undelegate bandwidth until the chain is activated " ++
    "(at least 15% of all tokens participate in voting)")
  env.changebw t signer receiver net.neg cpu.neg false

def refund (t : Tables) (owner : AccountName) : Result (Tables × List InlineTransfer) := do
  env.requireAuth owner
  match t.refunds.find? owner with
  | none => throw ⟨.eosioAssertMessageException, "assertion failure with message: refund request not found"⟩
  | some r => do
    eosioAssert ((r.requestTime + refundDelay) % 2 ^ 32 ≤ env.now) "refund is not available yet"
    let quantity ← r.net.add r.cpu
    pure ({ t with refunds := t.refunds.erase owner }, [⟨stakeAccount, r.owner, quantity, "unstake"⟩])

end Env

inductive Action where
  | delegatebw (signer receiver : AccountName) (net cpu : Asset) (transfer : Bool)
  | undelegatebw (signer receiver : AccountName) (net cpu : Asset)
  | refund (owner : AccountName)

def Action.signer : Action → AccountName
  | delegatebw signer _ _ _ _ => signer
  | undelegatebw signer _ _ _ => signer
  | refund owner => owner

def Env.run (env : Env) (t : Tables) : Action → Result (Tables × List InlineTransfer)
  | .delegatebw signer receiver net cpu transfer => env.delegatebw t signer receiver net cpu transfer
  | .undelegatebw signer receiver net cpu => env.undelegatebw t signer receiver net cpu
  | .refund owner => env.refund t owner

structure System where
  token : Token.Tables
  staking : Tables

def Env.sendInline (env : Env) (t : Token.Tables) (i : InlineTransfer) : Result Token.Tables := do
  env.actsFor i.sender
  t.transfer { env.toEnv with hasAuth := fun a => a = i.sender } i.sender i.recipient i.quantity i.memo

def System.apply (env : Env) (s : System) (a : Action) : Result (System × List InlineTransfer) := do
  let (staking, inlines) ← env.run s.staking a
  let token ← inlines.foldlM env.sendInline s.token
  pure (⟨token, staking⟩, inlines)

end XosChain.Staking
