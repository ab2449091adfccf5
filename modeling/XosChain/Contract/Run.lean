import XosChain.Contract.TableEffects
import XosChain.Deferred.Effects

namespace XosChain

open Lib

inductive ChainOp where
  | native (ctx : Context) (act : Action)
  | scheduleDeferred (ctx : ApplyContext) (senderId : ℕ) (payer : AccountName) (trx : Transaction)
      (replaceExisting : Bool)
  | cancelDeferred (senderId : ℕ) (sender : AccountName)
  | delay (ctx : Context) (trx : Transaction) (delay : ℕ)
  | retire (trxId : TransactionId)
  | dbStore (ctx : ApplyContext) (scope table : ℕ) (payer : AccountName) (id : ℕ) (value : Bytes)
  | dbUpdate (ctx : ApplyContext) (iterator : RowKey) (payer : AccountName) (value : Bytes)
  | dbRemove (ctx : ApplyContext) (iterator : RowKey)
  | idxStore (ctx : ApplyContext) (type : IndexType) (scope table : ℕ) (payer : AccountName) (id secondaryKey : ℕ)
  | idxUpdate (ctx : ApplyContext) (type : IndexType) (iterator : RowKey) (payer : AccountName) (secondaryKey : ℕ)
  | idxRemove (ctx : ApplyContext) (type : IndexType) (iterator : RowKey)

def ChainOp.onTables : ChainOp → Bool
  | .dbStore .. | .dbUpdate .. | .dbRemove .. | .idxStore .. | .idxUpdate .. | .idxRemove .. => true
  | _ => false

namespace Db

def retireRow (db : Db) (p : Packing) (trxId : TransactionId) : Result Db :=
  match db.findGenerated trxId with
  | some e => db.removeScheduledTransaction p e.1 e.2
  | none => .error ⟨.unknownTransactionException, "unknown transaction"⟩

def applyOp (db : Db) (rt : Runtime) : ChainOp → Result Db
  | .native ctx act => db.applyNative rt ctx act
  | .scheduleDeferred ctx senderId payer trx replaceExisting =>
    db.scheduleDeferredTransaction rt.packing ctx senderId payer trx replaceExisting
  | .cancelDeferred senderId sender => db.cancelDeferredTransaction rt.packing senderId sender
  | .delay ctx trx delay => db.scheduleTransaction rt.packing ctx trx (rt.packing.id trx) delay
  | .retire trxId => db.retireRow rt.packing trxId
  | .dbStore ctx scope table payer id value => db.dbStoreI64 ctx scope table payer id value
  | .dbUpdate ctx iterator payer value => db.dbUpdateI64 ctx iterator payer value
  | .dbRemove ctx iterator => db.dbRemoveI64 ctx iterator
  | .idxStore ctx type scope table payer id secondaryKey => db.idxStore ctx type scope table payer id secondaryKey
  | .idxUpdate ctx type iterator payer secondaryKey => db.idxUpdate ctx type iterator payer secondaryKey
  | .idxRemove ctx type iterator => db.idxRemove ctx type iterator

inductive ChainRun (rt : Runtime) (allowed : Db → ChainOp → Prop) (start : Db) : Db → Prop
  | start : ChainRun rt allowed start start
  | step {db db' : Db} (op : ChainOp) (h : ChainRun rt allowed start db) (ha : allowed db op)
      (hs : db.applyOp rt op = .ok db') : ChainRun rt allowed start db'

variable {rt : Runtime} {allowed : Db → ChainOp → Prop} {start db db' : Db}

lemma applyOp_tableStep {op : ChainOp} (ho : op.onTables = true) (h : db.applyOp rt op = .ok db') :
    TableStep rt.packing 0 db db' := by
  cases op with
  | dbStore ctx scope table payer id value => exact (dbStoreI64_ok h).step
  | dbUpdate ctx iterator payer value => exact (dbUpdateI64_ok h).step
  | dbRemove ctx iterator => exact (dbRemoveI64_ok h).step
  | idxStore ctx type scope table payer id secondaryKey => exact (idxStore_ok h).step
  | idxUpdate ctx type iterator payer secondaryKey => exact (idxUpdate_ok h).step
  | idxRemove ctx type iterator => exact (idxRemove_ok h).step
  | native | scheduleDeferred | cancelDeferred | delay | retire => cases ho

def applyOps (db : Db) (rt : Runtime) (ops : List ChainOp) : Result Db := ops.foldlM (fun db op => db.applyOp rt op) db

lemma ChainRun.applyOps {allowed : Db → ChainOp → Prop} {ops : List ChainOp} (h : ChainRun rt allowed start db)
    (ha : ∀ db op, op ∈ ops → allowed db op) (hs : db.applyOps rt ops = .ok db') : ChainRun rt allowed start db' := by
  induction ops generalizing db with
  | nil =>
    cases hs
    exact h
  | cons op ops ih =>
    rw [Db.applyOps, List.foldlM_cons] at hs
    obtain ⟨db1, h1, hs⟩ := bind_ok hs
    exact ih (.step op h (ha db op List.mem_cons_self) h1) (fun d o ho => ha d o (List.mem_cons_of_mem _ ho)) hs

lemma retireRow_ok {p : Packing} {trxId : TransactionId} (h : db.retireRow p trxId = .ok db') :
    ∃ e, db.findGenerated trxId = some e ∧ db.removeScheduledTransaction p e.1 e.2 = .ok db' := by
  rw [retireRow] at h
  split at h
  · next e he => exact ⟨e, he, h⟩
  · cases h

structure SameTables (db db' : Db) : Prop where
  tables : db'.tables = db.tables
  nextTableId : db'.nextTableId = db.nextTableId
  keyValues : db'.keyValues = db.keyValues
  secondaries : db'.secondaries = db.secondaries

lemma applyNative_sameTables {ctx : Context} {act : Action} (h : db.applyNative rt ctx act = .ok db') :
    SameTables db db' := by
  obtain ⟨_, _, _, _, _, _, rfl⟩ := (applyNative_frame h).rest
  exact ⟨rfl, rfl, rfl, rfl⟩

lemma applyOp_offTables {op : ChainOp} (ho : op.onTables = false) (h : db.applyOp rt op = .ok db') :
    (∃ ctx act, db.applyNative rt ctx act = .ok db') ∨ ∃ generated resources, db' = { db with generated, resources } := by
  cases op with
  | native ctx act => exact .inl ⟨ctx, act, h⟩
  | scheduleDeferred ctx senderId payer trx replaceExisting =>
    obtain ⟨-, r, rfl, -⟩ | ⟨g, -, r, rfl, -⟩ := scheduleDeferredTransaction_ok h
    · exact .inr ⟨_, r, rfl⟩
    · exact .inr ⟨_, r, rfl⟩
  | cancelDeferred senderId sender =>
    obtain ⟨-, rfl⟩ | ⟨g, -, r, rfl, -⟩ := cancelDeferredTransaction_ok h
    · exact .inr ⟨_, _, rfl⟩
    · exact .inr ⟨_, r, rfl⟩
  | delay ctx trx delay =>
    obtain ⟨g, -, -, -, r, rfl, -⟩ := scheduleTransaction_ok h
    exact .inr ⟨_, r, rfl⟩
  | retire trxId =>
    obtain ⟨e, -, h⟩ := retireRow_ok h
    obtain ⟨r, rfl, -⟩ := removeScheduledTransaction_ok h
    exact .inr ⟨_, r, rfl⟩
  | dbStore | dbUpdate | dbRemove | idxStore | idxUpdate | idxRemove => cases ho

lemma applyOp_sameTables {op : ChainOp} (ho : op.onTables = false) (h : db.applyOp rt op = .ok db') :
    SameTables db db' := by
  obtain ⟨ctx, act, h⟩ | ⟨generated, resources, rfl⟩ := applyOp_offTables ho h
  · exact applyNative_sameTables h
  · exact ⟨rfl, rfl, rfl, rfl⟩

lemma ChainRun.tablesBelow (h : ChainRun rt allowed start db) (hb : start.TablesBelow) : db.TablesBelow := by
  induction h with
  | start => exact hb
  | step op _ _ hs ih =>
    cases ho : op.onTables with
    | false =>
      have same := applyOp_sameTables ho hs
      rw [TablesBelow, same.tables, same.nextTableId]
      exact ih
    | true => exact (applyOp_tableStep ho hs).below ih

lemma genesis_rows {initialKey : PublicKey} {abi : Bytes} {time : ℕ} (h : genesis initialKey abi time = .ok db) :
    db.generated = FlatMap.empty ∧ SameTables initializeDatabase db := by
  obtain ⟨accounts, permissions, n, resources, rfl⟩ := genesis_frame h
  exact ⟨rfl, rfl, rfl, rfl, rfl⟩

end Db

end XosChain
