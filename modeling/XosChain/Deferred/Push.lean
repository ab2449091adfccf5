import XosChain.Deferred.Retire
import XosChain.Lib.Scope
import XosChain.ResourceLimits.TransactionContext

/-! `push_scheduled_transaction` with its undo sessions and guards. What the transaction itself and the error
handler of its sender do to the database is left open. -/

namespace XosChain.Retirement

open Lib

structure TransactionReceipt where
  trx : TransactionId
  status : ReceiptStatus
  cpuUsageUs : ℕ
  netUsageWords : ℕ
  deriving DecidableEq

abbrev ActionReceipt := Digest

structure Pending where
  db : Db
  undos : List Db := []
  transactions : List TransactionReceipt := []
  trxs : List TransactionId := []
  actions : List ActionReceipt := []
  inTrxRequiringChecks : Bool := false

abbrev Push := EStateM Thrown Pending

structure Attempt where
  db : Db
  outcome : Result Unit
  billToAccounts : ResourceLimits.Accounts := ⟨[], ResourceLimits.nil_ascending⟩
  initialObjectiveDurationLimit : ℤ := 0
  billedCpuTimeUs : ℕ := 0
  cpuTimeToBillUs : ℕ := 0
  netUsage : ℕ := 0
  executed : List ActionReceipt := []

structure Trace where
  receipt : Option TransactionReceipt := none
  except : Option Thrown := none
  failed : Option Thrown := none
  deriving DecidableEq

structure Environment where
  packing : Packing
  context : Context
  control : ResourceLimits.Control
  slot : ℕ
  clock : ℕ → ResourceLimits.Time
  considerSkipping : Bool
  transactionExtensions : Transaction → List (ℕ × Bytes)
  exec : GeneratedTransaction → Db → Attempt
  onerror : SenderKey → GeneratedTransaction → Db → Attempt
  acceptedTransaction : Pending → Result Unit
  appliedTransaction : Trace → Pending → Result Unit

namespace Pending

def startUndoSession (s : Pending) : Pending := { s with undos := s.db :: s.undos }

def undo (s : Pending) : Pending :=
  match s.undos with
  | [] => s
  | db :: undos => { s with db, undos }

def squash (s : Pending) : Pending := { s with undos := s.undos.tail }

def resize (s t : Pending) : Pending :=
  { t with
    transactions := t.transactions.take s.transactions.length
    trxs := t.trxs.take s.trxs.length
    actions := t.actions.take s.actions.length }

end Pending

def makeBlockRestorePoint {α : Type} (x : Push α) : Push α := onThrow Pending.resize x

def maybeSession {α : Type} (skip : Bool) (x : Push (α × Bool)) : Push α :=
  if skip then Prod.fst <$> x else session Pending.startUndoSession Pending.undo Pending.squash x

def pushReceipt (trx : TransactionId) (status : ReceiptStatus) (cpuUsageUs netUsage : ℕ) : Push TransactionReceipt := do
  let netUsageWords := netUsage / 8
  ofExcept (eosAssert (netUsageWords * 8 = netUsage) .transactionException "net_usage is not divisible by 8")
  let r : TransactionReceipt := ⟨trx, status, cpuUsageUs % 2 ^ 32, netUsageWords % 2 ^ 32⟩
  modify fun s => { s with transactions := s.transactions ++ [r] }
  return r

def Rethrown (e : Thrown) : Prop :=
  e.code = .badAlloc ∨ e.code = .controllerEmitSignalException ∨ e.code = .checkpointException

instance (e : Thrown) : Decidable (Rethrown e) := inferInstanceAs (Decidable (_ ∨ _))

def emit (subscribers : Pending → Result Unit) : Push Unit := do
  match subscribers (← get) with
  | .ok _ => pure ()
  | .error e => if Rethrown e then throw e else pure ()

def isSubjective (explicitBilledCpuTime : Bool) (e : Thrown) : Bool :=
  if explicitBilledCpuTime then failureIsSubjective e else scheduledFailureIsSubjective e

def runAttempt {α : Type} (a : Attempt) (accept : Push α) : Push (α × Bool) := do
  modify fun s => { s with db := a.db }
  ofExcept a.outcome
  let r ← makeBlockRestorePoint accept
  return (r, true)

def inContext {α : Type} (a : Attempt) (accept : Push α) : Push (Except Thrown α) :=
  catching Thrown.isFc (session Pending.startUndoSession Pending.undo Pending.squash (runAttempt a accept))

def acceptOnerror (g : GeneratedTransaction) (b : Attempt) : Push TransactionReceipt := do
  let r ← pushReceipt g.trxId .softFail b.billedCpuTimeUs b.netUsage
  modify fun s => { s with actions := s.actions ++ b.executed }
  return r

namespace Environment

variable (env : Environment)

def skipDbSessions (s : Pending) : Bool := env.considerSkipping && !s.inTrxRequiringChecks

def announce (trace : Trace) : Push Unit := do
  emit env.acceptedTransaction
  emit (env.appliedTransaction trace)

def acceptExecuted (g : GeneratedTransaction) (a : Attempt) : Push TransactionReceipt := do
  let r ← pushReceipt g.trxId .executed a.billedCpuTimeUs a.netUsage
  modify fun s => { s with actions := s.actions ++ a.executed }
  env.announce { receipt := some r }
  return r

def limitTimeToBill (a : Attempt) (cpuTimeToBillUs : ℕ) (explicitBilledCpuTime : Bool) (resources : ResourceLimits.Db) :
    Result (ℕ × ResourceLimits.Db) :=
  if explicitBilledCpuTime then pure (cpuTimeToBillUs, resources)
  else do
    let resources ← resources.updateAccountUsage a.billToAccounts env.slot
    let b ← ResourceLimits.TransactionContext.maxBandwidthBilledAccountsCanPay { billToAccounts := a.billToAccounts }
      { env.control with isProducingBlock := false } resources
    let cpu := min (min (cpuTimeToBillUs : ℤ) b.accountCpuLimit) a.initialObjectiveDurationLimit
    pure ((cpu % 2 ^ 32).toNat, resources)

def billFailure (a : Attempt) (cpuTimeToBillUs : ℕ) (explicitBilledCpuTime : Bool) (resources : ResourceLimits.Db) :
    Result (ℕ × ResourceLimits.Db) := do
  let (cpu, resources) ← env.limitTimeToBill a cpuTimeToBillUs explicitBilledCpuTime resources
  let resources ← (resources.addTransactionUsage a.billToAccounts cpu 0 env.slot env.clock 0).1
  pure (cpu, resources)

def retireFailure (g : GeneratedTransaction) (a : Attempt) (cpuTimeToBillUs : ℕ) (explicitBilledCpuTime : Bool)
    (trace : Trace) (e : Thrown) : Push (Trace × Bool) := do
  if isSubjective explicitBilledCpuTime e = true then
    env.announce trace
    return (trace, false)
  else
    let (cpu, resources) ← ofExcept (env.billFailure a cpuTimeToBillUs explicitBilledCpuTime (← get).db.resources)
    modify fun s => { s with db := { s.db with resources } }
    let r ← pushReceipt g.trxId .hardFail cpu 0
    let trace := { trace with receipt := some r }
    env.announce trace
    return (trace, true)

def handleFailure (key : SenderKey) (g : GeneratedTransaction) (a : Attempt) (explicitBilledCpuTime : Bool) (e : Thrown) :
    Push (Trace × Bool) := do
  if (ofLex key).1 ≠ 0 ∧ failureIsSubjective e = false then
    let b := env.onerror key g (← get).db
    match ← inContext b (acceptOnerror g b) with
    | .ok r =>
      let trace : Trace := { receipt := some r, failed := some e }
      env.announce trace
      return (trace, true)
    | .error e' =>
      env.retireFailure g a b.cpuTimeToBillUs explicitBilledCpuTime { except := some e', failed := some e } e'
  else env.retireFailure g a a.cpuTimeToBillUs explicitBilledCpuTime { except := some e } e

def runScheduled (key : SenderKey) (g : GeneratedTransaction) (explicitBilledCpuTime : Bool) : Push (Trace × Bool) := do
  ofExcept (eosAssert (env.transactionExtensions g.packedTrx = []) .unsupportedFeature
    "we don't support any extensions yet")
  let a := env.exec g (← get).db
  match ← inContext a (env.acceptExecuted g a) with
  | .ok r => return ({ receipt := some r }, true)
  | .error e => env.handleFailure key g a explicitBilledCpuTime e

def retireScheduled (key : SenderKey) (g : GeneratedTransaction) (billedCpuTimeUs : ℕ) (explicitBilledCpuTime : Bool) :
    Push (Trace × Bool) := do
  let removed ← ofExcept ((← get).db.removeScheduledTransaction env.packing key g)
  modify fun s => { s with db := removed }
  ofExcept (eosAssert (g.delayUntil ≤ env.context.pendingBlockTime) .transactionException "this transaction isn't ready")
  if g.expiration < env.context.pendingBlockTime then
    let r ← pushReceipt g.trxId .expired billedCpuTimeUs 0
    let trace : Trace := { receipt := some r }
    env.announce trace
    return (trace, true)
  else
    let old := (← get).inTrxRequiringChecks
    onExit (fun _ t => { t with inTrxRequiringChecks := old }) do
      modify fun s => { s with inTrxRequiringChecks := true }
      env.runScheduled key g explicitBilledCpuTime

def pushScheduledTransaction (trxId : TransactionId) (billedCpuTimeUs : ℕ) (explicitBilledCpuTime : Bool) :
    Push Trace := do
  let s ← get
  match s.db.findGenerated trxId with
  | some (key, g) =>
    maybeSession (env.skipDbSessions s) (env.retireScheduled key g billedCpuTimeUs explicitBilledCpuTime)
  | none => throw ⟨.unknownTransactionException, "unknown transaction"⟩

end Environment

end XosChain.Retirement
