import XosChain.Account.Manager
import XosChain.ResourceLimits.Ram

namespace XosChain

open Lib

structure Packing where
  id : Transaction → TransactionId
  size : Transaction → ℕ

structure ApplyContext extends Context where
  receiver : AccountName
  actAccount : AccountName
  authorization : List PermissionLevel := []
  privileged : Bool := false
  skipAuthCheck : Bool := false
  refBlockNum : ℕ := 0
  refBlockPrefix : ℕ := 0

def requireAuthorization (authorization : List PermissionLevel) (account : AccountName) : Result Unit :=
  eosAssert (∃ l ∈ authorization, l.actor = account) .missingAuthException "missing authority"

def Context.isRamBillingInNotifyAllowed (ctx : Context) : Bool := !ctx.producing || ctx.allowRamBillingInNotify

def transactionIdToSenderId (id : TransactionId) : ℕ := id / 2 ^ 128 % 2 ^ 128

def senderKey (sender : AccountName) (senderId : ℕ) : SenderKey := toLex (sender, senderId)

def Transaction.firstAuthorizor (trx : Transaction) : AccountName :=
  ((trx.actions.flatMap (·.authorization)).head?).elim 0 (·.actor)

namespace Db

def addRamUsage (db : Db) (account : AccountName) (ramDelta : ℤ) : Result Db := do
  let resources ← db.resources.addPendingRamUsage account ramDelta
  pure { db with resources }

def validateReferencedAuth (db : Db) (auth : PermissionLevel) : Result Unit := do
  eosAssert (db.accounts.contains auth.actor = true) .transactionException "action's authorizing actor does not exist"
  match ← db.findPermission auth with
  | some _ => pure ()
  | none => .error ⟨.transactionException, "action's authorizations include a non-existent permission"⟩

def validateReferencedAccounts (db : Db) (trx : Transaction) : Result Unit := do
  for a in trx.contextFreeActions do
    eosAssert (db.accounts.contains a.account = true) .transactionException "action's code account does not exist"
    eosAssert (a.authorization = []) .transactionException "context-free actions cannot have authorizations"
  for a in trx.actions do
    eosAssert (db.accounts.contains a.account = true) .transactionException "action's code account does not exist"
    for auth in a.authorization do
      db.validateReferencedAuth auth
  eosAssert (∃ a ∈ trx.actions, a.authorization ≠ []) .txNoAuths "transaction must have at least one authorization"

def createGenerated (db : Db) (key : SenderKey) (g : GeneratedTransaction) : Result Db :=
  if db.generated.contains key = true ∨ ∃ e ∈ db.generated.entries, e.2.trxId = g.trxId then
    .error ⟨.logicError, "could not insert object, most likely a uniqueness constraint was violated"⟩
  else pure { db with generated := db.generated.set key g }

def generatedSize (p : Packing) (g : GeneratedTransaction) : ℤ :=
  (Config.generatedTransactionObjectSize + p.size g.packedTrx : ℕ)

def stampDeferred (ctx : ApplyContext) (trx : Transaction) : Transaction :=
  { trx with
    expiration := (ctx.pendingBlockTime + 999999) / 1000000
    refBlockNum := ctx.refBlockNum
    refBlockPrefix := ctx.refBlockPrefix }

def checkDeferredAuthorization (db : Db) (ctx : ApplyContext) (payer : AccountName) (trx : Transaction) :
    Result Unit := do
  if ctx.skipAuthCheck ∨ ctx.privileged then pure ()
  else do
    if payer ≠ ctx.receiver then requireAuthorization ctx.authorization payer
    if ∃ act ∈ trx.actions, act.account ≠ ctx.receiver then
      db.checkAuthorization ctx.toContext trx.actions [] [⟨ctx.receiver, Config.eosioCodeName⟩]
        (trx.delaySec * 1000000) false

def deferredRow (p : Packing) (ctx : ApplyContext) (payer : AccountName) (trx : Transaction) : GeneratedTransaction :=
  { trxId := p.id trx
    payer
    published := ctx.pendingBlockTime
    delayUntil := ctx.pendingBlockTime + trx.delaySec * 1000000
    expiration := ctx.pendingBlockTime + trx.delaySec * 1000000 + ctx.deferredTrxExpirationWindow * 1000000
    packedTrx := trx }

def storeDeferred (db : Db) (p : Packing) (ctx : ApplyContext) (key : SenderKey) (payer : AccountName)
    (trx : Transaction) (replaceExisting : Bool) : Result Db :=
  match db.generated.find? key with
  | some g => do
    eosAssert (replaceExisting = true) .deferredTxDuplicate
      "deferred transaction with the same sender_id and payer already exists"
    eosAssert (ctx.producing = false) .subjectiveBlockProductionException
      "Replacing a deferred transaction is temporarily disabled."
    pure { db with generated := db.generated.set key { deferredRow p ctx payer trx with trxId := g.trxId } }
  | none => db.createGenerated key (deferredRow p ctx payer trx)

def scheduleDeferredTransaction (db : Db) (p : Packing) (ctx : ApplyContext) (senderId : ℕ) (payer : AccountName)
    (trx : Transaction) (replaceExisting : Bool) : Result Db := do
  eosAssert (trx.contextFreeActions = []) .cfaInsideGeneratedTx
    "context free actions are not currently allowed in generated transactions"
  let trx := stampDeferred ctx trx
  db.validateReferencedAccounts trx
  db.checkDeferredAuthorization ctx payer trx
  let db ← db.storeDeferred p ctx (senderKey ctx.receiver senderId) payer trx replaceExisting
  eosAssert (ctx.isRamBillingInNotifyAllowed = true ∨ ctx.receiver = ctx.actAccount ∨ ctx.receiver = payer ∨
    ctx.privileged = true) .subjectiveBlockProductionException "Cannot charge RAM to other accounts during notify."
  db.addRamUsage payer (generatedSize p (deferredRow p ctx payer trx))

def cancelDeferredTransaction (db : Db) (p : Packing) (senderId : ℕ) (sender : AccountName) : Result Db :=
  match db.generated.find? (senderKey sender senderId) with
  | some g => do
    let db ← db.addRamUsage g.payer (-generatedSize p g)
    pure { db with generated := db.generated.erase (senderKey sender senderId) }
  | none => pure db

def scheduleTransaction (db : Db) (p : Packing) (ctx : Context) (trx : Transaction) (id : TransactionId)
    (delay : ℕ) : Result Db := do
  let g : GeneratedTransaction :=
    { trxId := id
      payer := trx.firstAuthorizor
      published := ctx.pendingBlockTime
      delayUntil := ctx.pendingBlockTime + delay
      expiration := ctx.pendingBlockTime + delay + ctx.deferredTrxExpirationWindow * 1000000
      packedTrx := trx }
  let db ← db.createGenerated (senderKey 0 (transactionIdToSenderId id)) g
  db.addRamUsage g.payer (generatedSize p g)

def removeScheduledTransaction (db : Db) (p : Packing) (key : SenderKey) (g : GeneratedTransaction) : Result Db := do
  let db ← db.addRamUsage g.payer (-generatedSize p g)
  pure { db with generated := db.generated.erase key }

def findGenerated (db : Db) (trxId : TransactionId) : Option (SenderKey × GeneratedTransaction) :=
  db.generated.entries.find? (fun e => e.2.trxId = trxId)

end Db

end XosChain
