import XosChain.Contract.Run
import XosChain.Lib.Slots

/-! The database intrinsics of a contract, with the iterators that an action holds. A pointer to a row or to a table
object is kept as its key, and following it when the object is gone is undefined behavior. -/

namespace XosChain

open Lib

def narrow (n : ℤ) : ℤ := n.bmod (2 ^ 32)

structure IteratorCache where
  tableCache : FlatMap ℕ ℤ := FlatMap.empty
  endIteratorToTable : List ℕ := []
  objects : Slots RowKey ℤ := Slots.empty

namespace IteratorCache

def endIteratorToIndex (ei : ℤ) : ℕ := (-ei - 2).toNat

def indexToEndIterator (indx : ℕ) : ℤ := narrow (-(indx + 2))

def cacheTable (c : IteratorCache) (tableId : ℕ) : ℤ × IteratorCache :=
  match c.tableCache.find? tableId with
  | some ei => (ei, c)
  | none =>
    let ei := indexToEndIterator c.endIteratorToTable.length
    (ei, { c with
      tableCache := c.tableCache.set tableId ei
      endIteratorToTable := c.endIteratorToTable ++ [tableId] })

def getEndIteratorByTableId (c : IteratorCache) (tableId : ℕ) : Result ℤ :=
  match c.tableCache.find? tableId with
  | some ei => pure ei
  | none => .error ⟨.tableNotInCache, "an invariant was broken, table should be in cache"⟩

def findTableByEndIterator (c : IteratorCache) (ei : ℤ) : Result (Option ℕ) := do
  eosAssert (ei < -1) .invalidTableIterator "not an end iterator"
  pure c.endIteratorToTable[endIteratorToIndex ei]?

def get (c : IteratorCache) (iterator : ℤ) : Result RowKey := do
  eosAssert (iterator ≠ -1) .invalidTableIterator "invalid iterator"
  eosAssert (0 ≤ iterator) .tableOperationNotPermitted "dereference of end iterator"
  eosAssert (iterator < c.objects.slots.length) .invalidTableIterator "iterator out of range"
  match c.objects.holder iterator.toNat with
  | some key => pure key
  | none => .error ⟨.tableOperationNotPermitted, "dereference of deleted object"⟩

def remove (c : IteratorCache) (iterator : ℤ) : Result IteratorCache := do
  eosAssert (iterator ≠ -1) .invalidTableIterator "invalid iterator"
  eosAssert (0 ≤ iterator) .tableOperationNotPermitted "cannot call remove on end iterators"
  eosAssert (iterator < c.objects.slots.length) .invalidTableIterator "iterator out of range"
  pure { c with objects := c.objects.free iterator.toNat }

def add (c : IteratorCache) (key : RowKey) : ℤ × IteratorCache :=
  let (iterator, objects) := c.objects.add (fun n => narrow n) key
  (iterator, { c with objects })

end IteratorCache

def secondaryOrder (type : IndexType) (secondaryKey : ℕ) : ℤ :=
  let signMagnitude (sign : ℕ) : ℤ := if secondaryKey < sign then secondaryKey else sign - secondaryKey
  match type with
  | .index64 | .index128 | .index256 => secondaryKey
  | .indexDouble => signMagnitude (2 ^ 63)
  | .indexLongDouble => signMagnitude (2 ^ 127)

def RowKey.table (key : RowKey) : ℕ := (ofLex key).1

def RowKey.primary (key : RowKey) : ℕ := (ofLex key).2

structure IndexView where
  rows : List RowKey
  key : RowKey → ℤ

namespace IndexView

def position (v : IndexView) (row : RowKey) : ℕ ×ₗ ℤ := toLex (row.table, v.key row)

def lowerBound (v : IndexView) (tableId : ℕ) (key : ℤ) : Option RowKey :=
  v.rows.find? (fun row => toLex (tableId, key) ≤ v.position row)

def upperBound (v : IndexView) (tableId : ℕ) (key : ℤ) : Option RowKey :=
  v.rows.find? (fun row => toLex (tableId, key) < v.position row)

def find (v : IndexView) (tableId : ℕ) (key : ℤ) : Option RowKey :=
  (v.lowerBound tableId key).filter (fun row => v.position row = toLex (tableId, key))

def last (v : IndexView) (tableId : ℕ) : Option RowKey := (v.rows.takeWhile (·.table ≤ tableId)).getLast?

def next (v : IndexView) (row : RowKey) : Option RowKey := (v.rows.dropWhile (· ≠ row)).tail.head?

def previous (v : IndexView) (row : RowKey) : Option RowKey := (v.rows.takeWhile (· ≠ row)).getLast?

end IndexView

namespace Db

def rowKeys (db : Db) : Index → List RowKey
  | .keyValue => db.keyValues.keys
  | .secondary type => (db.secondaries type).keys

def byPrimary (db : Db) (i : Index) : IndexView := ⟨db.rowKeys i, fun row => row.primary⟩

def secondaryOf (db : Db) (type : IndexType) (row : RowKey) : ℕ :=
  ((db.secondaries type).find? row).elim 0 (·.secondaryKey)

def bySecondary (db : Db) (type : IndexType) : IndexView :=
  let key (row : RowKey) : ℤ := secondaryOrder type (db.secondaryOf type row)
  let position (row : RowKey) : ℕ ×ₗ ℤ ×ₗ ℕ := toLex (row.table, toLex (key row, row.primary))
  ⟨(db.rowKeys (.secondary type)).insertionSort (fun a b => position a ≤ position b), key⟩

end Db

structure ActionState where
  db : Db
  caches : Index → IteratorCache := fun _ => {}

structure Output where
  result : ℤ := 0
  primary : Option ℕ := none
  secondary : Option ℕ := none
  buffer : Bytes := []
  deriving DecidableEq

namespace ActionState

def setCache (s : ActionState) (i : Index) (c : IteratorCache) : ActionState :=
  { s with caches := Function.update s.caches i c }

def cacheTable (s : ActionState) (i : Index) (tableId : ℕ) : ℤ × ActionState :=
  let (ei, c) := (s.caches i).cacheTable tableId
  (ei, s.setCache i c)

def add (s : ActionState) (i : Index) (key : RowKey) : ℤ × ActionState :=
  let (iterator, c) := (s.caches i).add key
  (iterator, s.setCache i c)

def get (s : ActionState) (i : Index) (iterator : ℤ) : Result RowKey := do
  let key ← (s.caches i).get iterator
  if key ∈ s.db.rowKeys i then pure key else .error ⟨.undefinedBehavior, "the row is gone"⟩

def getTable (s : ActionState) (i : Index) (key : RowKey) : Result Unit := do
  eosAssert ((s.caches i).tableCache.contains key.table = true) .tableNotInCache
    "an invariant was broken, table should be in cache"
  if s.db.tables.contains key.table then pure () else .error ⟨.undefinedBehavior, "the table object is gone"⟩

def search (s : ActionState) (i : Index) (code : AccountName) (scope table : ℕ) (choose : ℕ → Option RowKey)
    (report : RowKey → Output) : Output × ActionState :=
  match s.db.findTable code scope table with
  | none => ({ result := -1 }, s)
  | some (tableId, _) =>
    let (tableEndItr, s) := s.cacheTable i tableId
    match choose tableId with
    | none => ({ result := tableEndItr }, s)
    | some row =>
      if row.table ≠ tableId then ({ result := tableEndItr }, s)
      else
        let (iterator, s) := s.add i row
        ({ report row with result := iterator }, s)

def reportPrimary (row : RowKey) : Output := { primary := some row.primary }

def next (s : ActionState) (i : Index) (v : IndexView) (iterator : ℤ) : Result (Output × ActionState) :=
  if iterator < -1 then pure ({ result := -1 }, s)
  else do
    let obj ← s.get i iterator
    match (v.next obj).filter (·.table = obj.table) with
    | none => do
      let ei ← (s.caches i).getEndIteratorByTableId obj.table
      pure ({ result := ei }, s)
    | some row =>
      let (iterator, s) := s.add i row
      pure ({ reportPrimary row with result := iterator }, s)

def stepBack (s : ActionState) (i : Index) (tableId : ℕ) (row : Option RowKey) : Output × ActionState :=
  match row.filter (·.table = tableId) with
  | none => ({ result := -1 }, s)
  | some row =>
    let (iterator, s) := s.add i row
    ({ reportPrimary row with result := iterator }, s)

def previous (s : ActionState) (i : Index) (v : IndexView) (iterator : ℤ) : Result (Output × ActionState) :=
  if iterator < -1 then do
    match ← (s.caches i).findTableByEndIterator iterator with
    | none => .error ⟨.invalidTableIterator, "not a valid end iterator"⟩
    | some tableId =>
      if s.db.tables.contains tableId then pure (s.stepBack i tableId (v.last tableId))
      else .error ⟨.undefinedBehavior, "the table object is gone"⟩
  else do
    let obj ← s.get i iterator
    pure (s.stepBack i obj.table (v.previous obj))

def cacheStored (s : ActionState) (ctx : ApplyContext) (i : Index) (scope table : ℕ) (payer : AccountName) (id : ℕ)
    (db : Db) : Result (Output × ActionState) := do
  let (tableId, _) ← s.db.findOrCreateTable ctx ctx.receiver scope table payer
  let (_, s) := cacheTable { s with db } i tableId
  let (iterator, s) := s.add i (rowKey tableId id)
  pure ({ result := iterator }, s)

def dbStoreI64 (s : ActionState) (ctx : ApplyContext) (scope table : ℕ) (payer : AccountName) (id : ℕ)
    (buffer : Bytes) : Result (Output × ActionState) := do
  let db ← s.db.dbStoreI64 ctx scope table payer id buffer
  s.cacheStored ctx .keyValue scope table payer id db

def dbUpdateI64 (s : ActionState) (ctx : ApplyContext) (iterator : ℤ) (payer : AccountName) (buffer : Bytes) :
    Result (Output × ActionState) := do
  let key ← s.get .keyValue iterator
  s.getTable .keyValue key
  let db ← s.db.dbUpdateI64 ctx key payer buffer
  pure ({}, { s with db })

def dbRemoveI64 (s : ActionState) (ctx : ApplyContext) (iterator : ℤ) : Result (Output × ActionState) := do
  let key ← s.get .keyValue iterator
  s.getTable .keyValue key
  let db ← s.db.dbRemoveI64 ctx key
  let c ← (s.caches .keyValue).remove iterator
  pure ({}, setCache { s with db } .keyValue c)

def dbGetI64 (s : ActionState) (iterator : ℤ) (bufferSize : ℕ) : Result (Output × ActionState) := do
  let key ← s.get .keyValue iterator
  let obj ← iteratedRow s.db.keyValues key
  if bufferSize = 0 then pure ({ result := narrow obj.value.length }, s)
  else
    let copySize := min bufferSize obj.value.length
    pure ({ result := narrow copySize, buffer := obj.value.take copySize }, s)

def dbNextI64 (s : ActionState) (iterator : ℤ) : Result (Output × ActionState) :=
  s.next .keyValue (s.db.byPrimary .keyValue) iterator

def dbPreviousI64 (s : ActionState) (iterator : ℤ) : Result (Output × ActionState) :=
  s.previous .keyValue (s.db.byPrimary .keyValue) iterator

def dbFindI64 (s : ActionState) (code : AccountName) (scope table id : ℕ) : Output × ActionState :=
  s.search .keyValue code scope table (fun tableId => (s.db.byPrimary .keyValue).find tableId id) (fun _ => {})

def dbLowerboundI64 (s : ActionState) (code : AccountName) (scope table id : ℕ) : Output × ActionState :=
  s.search .keyValue code scope table (fun tableId => (s.db.byPrimary .keyValue).lowerBound tableId id) (fun _ => {})

def dbUpperboundI64 (s : ActionState) (code : AccountName) (scope table id : ℕ) : Output × ActionState :=
  s.search .keyValue code scope table (fun tableId => (s.db.byPrimary .keyValue).upperBound tableId id) (fun _ => {})

def dbEndI64 (s : ActionState) (code : AccountName) (scope table : ℕ) : Output × ActionState :=
  s.search .keyValue code scope table (fun _ => none) (fun _ => {})

section

variable (s : ActionState) (type : IndexType)

def store (ctx : ApplyContext) (scope table : ℕ) (payer : AccountName) (id value : ℕ) :
    Result (Output × ActionState) := do
  let db ← s.db.idxStore ctx type scope table payer id value
  s.cacheStored ctx (.secondary type) scope table payer id db

def remove (ctx : ApplyContext) (iterator : ℤ) : Result (Output × ActionState) := do
  let key ← s.get (.secondary type) iterator
  let obj ← iteratedRow (s.db.secondaries type) key
  -- The refund comes before the table is looked up.
  let _ ← s.db.updateDbUsage ctx obj.payer (-Config.indexObjectSize type)
  s.getTable (.secondary type) key
  let db ← s.db.idxRemove ctx type key
  let c ← (s.caches (.secondary type)).remove iterator
  pure ({}, setCache { s with db } (.secondary type) c)

def update (ctx : ApplyContext) (iterator : ℤ) (payer : AccountName) (secondary : ℕ) :
    Result (Output × ActionState) := do
  let key ← s.get (.secondary type) iterator
  s.getTable (.secondary type) key
  let db ← s.db.idxUpdate ctx type key payer secondary
  pure ({}, { s with db })

def reportSecondary (row : RowKey) : Output := { secondary := some (s.db.secondaryOf type row) }

def reportBoth (row : RowKey) : Output :=
  { primary := some row.primary, secondary := some (s.db.secondaryOf type row) }

def findSecondary (code : AccountName) (scope table secondary : ℕ) : Output × ActionState :=
  s.search (.secondary type) code scope table
    (fun tableId => (s.db.bySecondary type).find tableId (secondaryOrder type secondary)) reportPrimary

def lowerboundSecondary (code : AccountName) (scope table secondary : ℕ) : Output × ActionState :=
  s.search (.secondary type) code scope table
    (fun tableId => (s.db.bySecondary type).lowerBound tableId (secondaryOrder type secondary)) (s.reportBoth type)

def upperboundSecondary (code : AccountName) (scope table secondary : ℕ) : Output × ActionState :=
  s.search (.secondary type) code scope table
    (fun tableId => (s.db.bySecondary type).upperBound tableId (secondaryOrder type secondary)) (s.reportBoth type)

def endSecondary (code : AccountName) (scope table : ℕ) : Output × ActionState :=
  s.search (.secondary type) code scope table (fun _ => none) (fun _ => {})

def nextSecondary (iterator : ℤ) : Result (Output × ActionState) :=
  s.next (.secondary type) (s.db.bySecondary type) iterator

def previousSecondary (iterator : ℤ) : Result (Output × ActionState) :=
  s.previous (.secondary type) (s.db.bySecondary type) iterator

def findPrimary (code : AccountName) (scope table primary : ℕ) : Output × ActionState :=
  s.search (.secondary type) code scope table
    (fun tableId => (s.db.byPrimary (.secondary type)).find tableId primary) (s.reportSecondary type)

def lowerboundPrimary (code : AccountName) (scope table primary : ℕ) : Output × ActionState :=
  s.search (.secondary type) code scope table
    (fun tableId => (s.db.byPrimary (.secondary type)).lowerBound tableId primary) (fun _ => {})

def upperboundPrimary (code : AccountName) (scope table primary : ℕ) : Output × ActionState :=
  s.search (.secondary type) code scope table
    (fun tableId => (s.db.byPrimary (.secondary type)).upperBound tableId primary) (fun _ => {})

def nextPrimary (iterator : ℤ) : Result (Output × ActionState) :=
  s.next (.secondary type) (s.db.byPrimary (.secondary type)) iterator

def previousPrimary (iterator : ℤ) : Result (Output × ActionState) :=
  s.previous (.secondary type) (s.db.byPrimary (.secondary type)) iterator

def getRow (iterator : ℤ) : Result (Output × ActionState) := do
  let key ← s.get (.secondary type) iterator
  pure (s.reportBoth type key, s)

end

end ActionState

inductive Intrinsic where
  | dbStoreI64 (scope table : ℕ) (payer : AccountName) (id : ℕ) (buffer : Bytes)
  | dbUpdateI64 (iterator : ℤ) (payer : AccountName) (buffer : Bytes)
  | dbRemoveI64 (iterator : ℤ)
  | dbGetI64 (iterator : ℤ) (bufferSize : ℕ)
  | dbNextI64 (iterator : ℤ)
  | dbPreviousI64 (iterator : ℤ)
  | dbFindI64 (code : AccountName) (scope table id : ℕ)
  | dbLowerboundI64 (code : AccountName) (scope table id : ℕ)
  | dbUpperboundI64 (code : AccountName) (scope table id : ℕ)
  | dbEndI64 (code : AccountName) (scope table : ℕ)
  | store (type : IndexType) (scope table : ℕ) (payer : AccountName) (id value : ℕ)
  | remove (type : IndexType) (iterator : ℤ)
  | update (type : IndexType) (iterator : ℤ) (payer : AccountName) (secondary : ℕ)
  | findSecondary (type : IndexType) (code : AccountName) (scope table secondary : ℕ)
  | lowerboundSecondary (type : IndexType) (code : AccountName) (scope table secondary : ℕ)
  | upperboundSecondary (type : IndexType) (code : AccountName) (scope table secondary : ℕ)
  | endSecondary (type : IndexType) (code : AccountName) (scope table : ℕ)
  | nextSecondary (type : IndexType) (iterator : ℤ)
  | previousSecondary (type : IndexType) (iterator : ℤ)
  | findPrimary (type : IndexType) (code : AccountName) (scope table primary : ℕ)
  | lowerboundPrimary (type : IndexType) (code : AccountName) (scope table primary : ℕ)
  | upperboundPrimary (type : IndexType) (code : AccountName) (scope table primary : ℕ)
  | nextPrimary (type : IndexType) (iterator : ℤ)
  | previousPrimary (type : IndexType) (iterator : ℤ)
  | getRow (type : IndexType) (iterator : ℤ)
  deriving DecidableEq

def Intrinsic.handle : Intrinsic → Option (Index × ℤ)
  | .dbUpdateI64 iterator .. | .dbRemoveI64 iterator | .dbGetI64 iterator _ | .dbNextI64 iterator
  | .dbPreviousI64 iterator => some (.keyValue, iterator)
  | .remove type iterator | .update type iterator .. | .nextSecondary type iterator | .previousSecondary type iterator
  | .nextPrimary type iterator | .previousPrimary type iterator | .getRow type iterator =>
    some (.secondary type, iterator)
  | _ => none

def ActionState.call (s : ActionState) (ctx : ApplyContext) : Intrinsic → Result (Output × ActionState)
  | .dbStoreI64 scope table payer id buffer => s.dbStoreI64 ctx scope table payer id buffer
  | .dbUpdateI64 iterator payer buffer => s.dbUpdateI64 ctx iterator payer buffer
  | .dbRemoveI64 iterator => s.dbRemoveI64 ctx iterator
  | .dbGetI64 iterator bufferSize => s.dbGetI64 iterator bufferSize
  | .dbNextI64 iterator => s.dbNextI64 iterator
  | .dbPreviousI64 iterator => s.dbPreviousI64 iterator
  | .dbFindI64 code scope table id => pure (s.dbFindI64 code scope table id)
  | .dbLowerboundI64 code scope table id => pure (s.dbLowerboundI64 code scope table id)
  | .dbUpperboundI64 code scope table id => pure (s.dbUpperboundI64 code scope table id)
  | .dbEndI64 code scope table => pure (s.dbEndI64 code scope table)
  | .store type scope table payer id value => s.store type ctx scope table payer id value
  | .remove type iterator => s.remove type ctx iterator
  | .update type iterator payer secondary => s.update type ctx iterator payer secondary
  | .findSecondary type code scope table secondary => pure (s.findSecondary type code scope table secondary)
  | .lowerboundSecondary type code scope table secondary => pure (s.lowerboundSecondary type code scope table secondary)
  | .upperboundSecondary type code scope table secondary => pure (s.upperboundSecondary type code scope table secondary)
  | .endSecondary type code scope table => pure (s.endSecondary type code scope table)
  | .nextSecondary type iterator => s.nextSecondary type iterator
  | .previousSecondary type iterator => s.previousSecondary type iterator
  | .findPrimary type code scope table primary => pure (s.findPrimary type code scope table primary)
  | .lowerboundPrimary type code scope table primary => pure (s.lowerboundPrimary type code scope table primary)
  | .upperboundPrimary type code scope table primary => pure (s.upperboundPrimary type code scope table primary)
  | .nextPrimary type iterator => s.nextPrimary type iterator
  | .previousPrimary type iterator => s.previousPrimary type iterator
  | .getRow type iterator => s.getRow type iterator

end XosChain
