import XosChain.Account.Native

/-! The tables of the contracts: rows by primary key, rows of the secondary indices, and the table objects that
count them. An iterator is taken as the key of the row that the iterator cache has for it. -/

namespace XosChain

open Lib ResourceLimits Config

def rowKey (tableId primaryKey : ℕ) : RowKey := toLex (tableId, primaryKey)

def iteratedRow {ν : Type} (m : FlatMap RowKey ν) (key : RowKey) : Result ν :=
  match m.find? key with
  | some row => pure row
  | none => .error ⟨.tableOperationNotPermitted, "dereference of deleted object"⟩

def createTableRow {ν : Type} (m : FlatMap RowKey ν) (key : RowKey) (row : ν) : Result (FlatMap RowKey ν) :=
  if m.contains key = true then
    .error ⟨.logicError, "could not insert object, most likely a uniqueness constraint was violated"⟩
  else pure (m.set key row)

def keyValueSize (row : KeyValueObject) : ℤ := (row.value.length + keyValueObjectSize : ℕ)

inductive Index where
  | keyValue
  | secondary (type : IndexType)
  deriving DecidableEq

namespace Db

def updateDbUsage (db : Db) (ctx : ApplyContext) (payer : AccountName) (delta : ℤ) : Result Db := do
  eosAssert (0 < delta → ctx.privileged = true ∨ payer = ctx.receiver ∨ ctx.isRamBillingInNotifyAllowed = true ∨
    ctx.receiver = ctx.actAccount) .subjectiveBlockProductionException
    "Cannot charge RAM to other accounts during notify."
  eosAssert (0 < delta → ctx.privileged = true ∨ payer = ctx.receiver ∨ ∃ l ∈ ctx.authorization, l.actor = payer)
    .missingAuthException "missing authority"
  db.addRamUsage payer delta

def findTable (db : Db) (code : AccountName) (scope table : ℕ) : Option (ℕ × TableIdObject) :=
  db.tables.entries.find? (fun e => e.2.code = code ∧ e.2.scope = scope ∧ e.2.table = table)

def addTable (db : Db) (t : TableIdObject) : Db :=
  { db with tables := db.tables.set db.nextTableId t, nextTableId := db.nextTableId + 1 }

def findOrCreateTable (db : Db) (ctx : ApplyContext) (code : AccountName) (scope table : ℕ) (payer : AccountName) :
    Result (ℕ × Db) :=
  match db.findTable code scope table with
  | some t => pure (t.1, db)
  | none => do
    let db ← db.updateDbUsage ctx payer tableIdObjectSize
    pure (db.nextTableId, db.addTable { code, scope, table, payer })

def removeTable (db : Db) (ctx : ApplyContext) (tableId : ℕ) (t : TableIdObject) : Result Db := do
  let db ← db.updateDbUsage ctx t.payer (-tableIdObjectSize)
  pure { db with tables := db.tables.erase tableId }

def cachedTable (db : Db) (key : RowKey) : Result TableIdObject :=
  match db.tables.find? (ofLex key).1 with
  | some t => pure t
  | none => .error ⟨.tableNotInCache, "an invariant was broken, table should be in cache"⟩

def countRow (db : Db) (key : RowKey) : Result Db := do
  let t ← db.cachedTable key
  pure { db with tables := db.tables.set (ofLex key).1 { t with count := (t.count + 1) % 2 ^ 32 } }

def uncountRow (db : Db) (ctx : ApplyContext) (key : RowKey) : Result Db := do
  let t ← db.cachedTable key
  let t := { t with count := (t.count + uint32Max) % 2 ^ 32 }
  let db := { db with tables := db.tables.set (ofLex key).1 t }
  if t.count = 0 then db.removeTable ctx (ofLex key).1 t else pure db

def moveDbUsage (db : Db) (ctx : ApplyContext) (oldPayer payer : AccountName) (oldSize newSize : ℤ) : Result Db :=
  if oldPayer ≠ payer then do
    let db ← db.updateDbUsage ctx oldPayer (-oldSize)
    db.updateDbUsage ctx payer newSize
  else if oldSize ≠ newSize then db.updateDbUsage ctx oldPayer (newSize - oldSize)
  else pure db

def requireOwnTable (db : Db) (ctx : ApplyContext) (key : RowKey) : Result Unit := do
  let t ← db.cachedTable key
  eosAssert (t.code = ctx.receiver) .tableAccessViolation "db access violation"

def dbStoreI64 (db : Db) (ctx : ApplyContext) (scope table : ℕ) (payer : AccountName) (id : ℕ) (value : Bytes) :
    Result Db := do
  let (tableId, db) ← db.findOrCreateTable ctx ctx.receiver scope table payer
  eosAssert (payer ≠ 0) .invalidTablePayer "must specify a valid account to pay for new record"
  let keyValues ← createTableRow db.keyValues (rowKey tableId id) { payer, value }
  let db ← countRow { db with keyValues } (rowKey tableId id)
  db.updateDbUsage ctx payer (keyValueSize { payer, value })

def dbUpdateI64 (db : Db) (ctx : ApplyContext) (iterator : RowKey) (payer : AccountName) (value : Bytes) :
    Result Db := do
  let obj ← iteratedRow db.keyValues iterator
  db.requireOwnTable ctx iterator
  let row : KeyValueObject := { payer := if payer = 0 then obj.payer else payer, value }
  let db ← db.moveDbUsage ctx obj.payer row.payer (keyValueSize obj) (keyValueSize row)
  pure { db with keyValues := db.keyValues.set iterator row }

def dbRemoveI64 (db : Db) (ctx : ApplyContext) (iterator : RowKey) : Result Db := do
  let obj ← iteratedRow db.keyValues iterator
  db.requireOwnTable ctx iterator
  let db ← db.updateDbUsage ctx obj.payer (-keyValueSize obj)
  uncountRow { db with keyValues := db.keyValues.erase iterator } ctx iterator

def setSecondary (db : Db) (type : IndexType) (m : FlatMap RowKey IndexObject) : Db :=
  { db with secondaries := Function.update db.secondaries type m }

def idxStore (db : Db) (ctx : ApplyContext) (type : IndexType) (scope table : ℕ) (payer : AccountName) (id : ℕ)
    (secondaryKey : ℕ) : Result Db := do
  eosAssert (payer ≠ 0) .invalidTablePayer "must specify a valid account to pay for new record"
  let (tableId, db) ← db.findOrCreateTable ctx ctx.receiver scope table payer
  let m ← createTableRow (db.secondaries type) (rowKey tableId id) { payer, secondaryKey }
  let db ← (db.setSecondary type m).countRow (rowKey tableId id)
  db.updateDbUsage ctx payer (indexObjectSize type)

def idxUpdate (db : Db) (ctx : ApplyContext) (type : IndexType) (iterator : RowKey) (payer : AccountName)
    (secondaryKey : ℕ) : Result Db := do
  let obj ← iteratedRow (db.secondaries type) iterator
  db.requireOwnTable ctx iterator
  let row : IndexObject := { payer := if payer = 0 then obj.payer else payer, secondaryKey }
  let db ← db.moveDbUsage ctx obj.payer row.payer (indexObjectSize type) (indexObjectSize type)
  pure (db.setSecondary type ((db.secondaries type).set iterator row))

def idxRemove (db : Db) (ctx : ApplyContext) (type : IndexType) (iterator : RowKey) : Result Db := do
  let obj ← iteratedRow (db.secondaries type) iterator
  let db ← db.updateDbUsage ctx obj.payer (-indexObjectSize type)
  db.requireOwnTable ctx iterator
  (db.setSecondary type ((db.secondaries type).erase iterator)).uncountRow ctx iterator

end Db

end XosChain
