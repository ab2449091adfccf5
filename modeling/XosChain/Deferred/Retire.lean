import XosChain.Account.Native

namespace XosChain

open Lib

def failureIsSubjective (e : Thrown) : Bool :=
  match e.code with
  | .subjectiveBlockProductionException | .blockNetUsageExceeded | .greylistNetUsageExceeded
  | .blockCpuUsageExceeded | .greylistCpuUsageExceeded | .deadlineException | .leewayDeadlineException
  | .actorWhitelistException | .actorBlacklistException | .contractWhitelistException | .contractBlacklistException
  | .actionBlacklistException | .keyBlacklistException => true
  | _ => false

def scheduledFailureIsSubjective (e : Thrown) : Bool := e.code = .txCpuUsageExceeded || failureIsSubjective e

inductive ReceiptStatus where
  | executed
  | softFail
  | hardFail
  | delayed
  | expired
  deriving DecidableEq

structure DeferredReceipt where
  id : TransactionId
  status : ReceiptStatus
  trx : Transaction
  deriving DecidableEq

structure Executor where
  exec : Transaction → Db → Result Db
  onerror : SenderKey → GeneratedTransaction → Db → Result Db

namespace Db

def retireFailed (db removed : Db) (ex : Executor) (key : SenderKey) (g : GeneratedTransaction) (explicitBilled : Bool)
    (e : Thrown) : Result (Option DeferredReceipt × Db) :=
  match if (ofLex key).1 ≠ 0 ∧ failureIsSubjective e = false then ex.onerror key g removed else .error e with
  | .ok db' => pure (some ⟨g.trxId, .softFail, g.packedTrx⟩, db')
  | .error e' =>
    if e'.isFc = false then .error e'
    else if (if explicitBilled then failureIsSubjective e' else scheduledFailureIsSubjective e') = true then
      pure (none, db)
    else pure (some ⟨g.trxId, .hardFail, g.packedTrx⟩, removed)

def retire (db : Db) (p : Packing) (ctx : Context) (ex : Executor) (key : SenderKey) (g : GeneratedTransaction)
    (explicitBilled : Bool) : Result (Option DeferredReceipt × Db) := do
  let removed ← db.removeScheduledTransaction p key g
  eosAssert (g.delayUntil ≤ ctx.pendingBlockTime) .transactionException "this transaction isn't ready"
  if g.expiration < ctx.pendingBlockTime then pure (some ⟨g.trxId, .expired, g.packedTrx⟩, removed)
  else
    match ex.exec g.packedTrx removed with
    | .ok db' => pure (some ⟨g.trxId, .executed, g.packedTrx⟩, db')
    | .error e => if e.isFc = true then db.retireFailed removed ex key g explicitBilled e else .error e

def pushScheduledTransaction (db : Db) (p : Packing) (ctx : Context) (ex : Executor) (trxId : TransactionId)
    (explicitBilled : Bool) : Result (Option DeferredReceipt × Db) :=
  match db.findGenerated trxId with
  | some e => db.retire p ctx ex e.1 e.2 explicitBilled
  | none => .error ⟨.unknownTransactionException, "unknown transaction"⟩

end Db

end XosChain
