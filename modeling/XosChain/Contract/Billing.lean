import XosChain.Contract.Tables
import XosChain.Account.Tree

namespace XosChain

open Lib ResourceLimits Config

def share (a payer : AccountName) (size : ℤ) : ℤ := if a = payer then size else 0

@[simp] lemma share_zero (a payer : AccountName) : share a payer 0 = 0 := by simp [share]

lemma share_add (a payer : AccountName) (m n : ℤ) : share a payer (m + n) = share a payer m + share a payer n := by
  by_cases h : a = payer <;> simp [share, h]

lemma share_neg (a payer : AccountName) (n : ℤ) : share a payer (-n) = -share a payer n := by
  by_cases h : a = payer <;> simp [share, h]

lemma share_sub (a payer : AccountName) (m n : ℤ) : share a payer (m - n) = share a payer m - share a payer n := by
  rw [sub_eq_add_neg, share_add, share_neg, sub_eq_add_neg]

def accountSize (row : AccountObject) : ℤ :=
  (overheadPerAccount + row.code.length * setcodeMultiplier + row.abi.length : ℕ)

def IndexType.all : List IndexType := [.index64, .index128, .index256, .indexDouble, .indexLongDouble]

namespace Db

section

variable (p : Packing) (db : Db) (a : AccountName)

def billedAccounts (m : FlatMap AccountName AccountObject) : ℤ := m.sum (fun name row => share a name (accountSize row))

def billedPermissions (m : FlatMap ℕ PermissionObject) : ℤ :=
  m.sum (fun _ row => share a row.owner (permissionSize row.auth))

def billedLinks (m : FlatMap LinkKey PermissionName) : ℤ :=
  m.sum (fun key _ => share a (ofLex key).1 permissionLinkObjectSize)

def billedGenerated (m : FlatMap SenderKey GeneratedTransaction) : ℤ :=
  m.sum (fun _ row => share a row.payer (generatedSize p row))

def billedTables (m : FlatMap ℕ TableIdObject) : ℤ := m.sum (fun _ row => share a row.payer tableIdObjectSize)

def billedKeyValues (m : FlatMap RowKey KeyValueObject) : ℤ := m.sum (fun _ row => share a row.payer (keyValueSize row))

def billedSecondary (type : IndexType) (m : FlatMap RowKey IndexObject) : ℤ :=
  m.sum (fun _ row => share a row.payer (indexObjectSize type))

def billed : ℤ :=
  billedAccounts a db.accounts + billedPermissions a db.permissions + billedLinks a db.links +
    billedGenerated p a db.generated + billedTables a db.tables + billedKeyValues a db.keyValues +
    (IndexType.all.map (fun type => billedSecondary a type (db.secondaries type))).sum

def drift : ℤ := db.resources.ramUsage a - db.billed p a

end

variable {db db' : Db} {p : Packing} {a account : AccountName} {ramDelta : ℤ}

lemma drift_charged (h : Charged db db' account ramDelta) :
    db'.drift p a = db.drift p a + share a account ramDelta := by
  obtain ⟨r, rfl, hr⟩ := h
  rw [drift, hr a, drift, share]
  simp only [billed]
  ring

lemma drift_setAccount {row : AccountObject} :
    drift p { db with accounts := db.accounts.set account row } a = db.drift p a +
      ((db.accounts.find? account).elim 0 (fun old => share a account (accountSize old)) -
        share a account (accountSize row)) := by
  have h := db.accounts.sum_sub_set account row (fun name row => share a name (accountSize row))
  rw [← h]
  simp only [drift, billed, billedAccounts]
  ring

variable {i : ℕ} {key : RowKey} {type : IndexType}

lemma drift_setPermission {row : PermissionObject} {next : ℕ} :
    drift p { db with permissions := db.permissions.set i row, nextPermissionId := next } a = db.drift p a +
      ((db.permissions.find? i).elim 0 (fun old => share a old.owner (permissionSize old.auth)) -
        share a row.owner (permissionSize row.auth)) := by
  have h := db.permissions.sum_sub_set i row (fun _ row => share a row.owner (permissionSize row.auth))
  rw [← h]
  simp only [drift, billed, billedPermissions]
  ring

lemma drift_erasePermission :
    drift p { db with permissions := db.permissions.erase i } a = db.drift p a +
      (db.permissions.find? i).elim 0 (fun old => share a old.owner (permissionSize old.auth)) := by
  have h := db.permissions.sum_sub_erase i (fun _ row => share a row.owner (permissionSize row.auth))
  rw [← h]
  simp only [drift, billed, billedPermissions]
  ring

lemma drift_setLink {key : LinkKey} {required : PermissionName} :
    drift p { db with links := db.links.set key required } a = db.drift p a +
      ((db.links.find? key).elim 0 (fun _ => share a (ofLex key).1 permissionLinkObjectSize) -
        share a (ofLex key).1 permissionLinkObjectSize) := by
  have h := db.links.sum_sub_set key required (fun key _ => share a (ofLex key).1 permissionLinkObjectSize)
  rw [← h]
  simp only [drift, billed, billedLinks]
  ring

lemma drift_eraseLink {key : LinkKey} :
    drift p { db with links := db.links.erase key } a = db.drift p a +
      (db.links.find? key).elim 0 (fun _ => share a (ofLex key).1 permissionLinkObjectSize) := by
  have h := db.links.sum_sub_erase key (fun key _ => share a (ofLex key).1 permissionLinkObjectSize)
  rw [← h]
  simp only [drift, billed, billedLinks]
  ring

lemma drift_setGenerated {key : SenderKey} {row : GeneratedTransaction} :
    drift p { db with generated := db.generated.set key row } a = db.drift p a +
      ((db.generated.find? key).elim 0 (fun old => share a old.payer (generatedSize p old)) -
        share a row.payer (generatedSize p row)) := by
  have h := db.generated.sum_sub_set key row (fun _ row => share a row.payer (generatedSize p row))
  rw [← h]
  simp only [drift, billed, billedGenerated]
  ring

lemma drift_eraseGenerated {key : SenderKey} :
    drift p { db with generated := db.generated.erase key } a = db.drift p a +
      (db.generated.find? key).elim 0 (fun old => share a old.payer (generatedSize p old)) := by
  have h := db.generated.sum_sub_erase key (fun _ row => share a row.payer (generatedSize p row))
  rw [← h]
  simp only [drift, billed, billedGenerated]
  ring

lemma drift_setTable {i next : ℕ} {row : TableIdObject} :
    drift p { db with tables := db.tables.set i row, nextTableId := next } a = db.drift p a +
      ((db.tables.find? i).elim 0 (fun old => share a old.payer tableIdObjectSize) -
        share a row.payer tableIdObjectSize) := by
  have h := db.tables.sum_sub_set i row (fun _ row => share a row.payer tableIdObjectSize)
  rw [← h]
  simp only [drift, billed, billedTables]
  ring

lemma drift_eraseTable :
    drift p { db with tables := db.tables.erase i } a = db.drift p a +
      (db.tables.find? i).elim 0 (fun old => share a old.payer tableIdObjectSize) := by
  have h := db.tables.sum_sub_erase i (fun _ row => share a row.payer tableIdObjectSize)
  rw [← h]
  simp only [drift, billed, billedTables]
  ring

lemma drift_setKeyValue {row : KeyValueObject} :
    drift p { db with keyValues := db.keyValues.set key row } a = db.drift p a +
      ((db.keyValues.find? key).elim 0 (fun old => share a old.payer (keyValueSize old)) -
        share a row.payer (keyValueSize row)) := by
  have h := db.keyValues.sum_sub_set key row (fun _ row => share a row.payer (keyValueSize row))
  rw [← h]
  simp only [drift, billed, billedKeyValues]
  ring

lemma drift_eraseKeyValue :
    drift p { db with keyValues := db.keyValues.erase key } a = db.drift p a +
      (db.keyValues.find? key).elim 0 (fun old => share a old.payer (keyValueSize old)) := by
  have h := db.keyValues.sum_sub_erase key (fun _ row => share a row.payer (keyValueSize row))
  rw [← h]
  simp only [drift, billed, billedKeyValues]
  ring

lemma drift_secondary {m : FlatMap RowKey IndexObject} :
    (db.setSecondary type m).drift p a =
      db.drift p a + (billedSecondary a type (db.secondaries type) - billedSecondary a type m) := by
  cases type <;> simp [drift, billed, setSecondary, IndexType.all, Function.update] <;> ring

lemma drift_setSecondary {row : IndexObject} :
    (db.setSecondary type ((db.secondaries type).set key row)).drift p a = db.drift p a +
      (((db.secondaries type).find? key).elim 0 (fun old => share a old.payer (indexObjectSize type)) -
        share a row.payer (indexObjectSize type)) := by
  rw [drift_secondary, billedSecondary, billedSecondary, FlatMap.sum_sub_set]

lemma drift_eraseSecondary :
    (db.setSecondary type ((db.secondaries type).erase key)).drift p a = db.drift p a +
      ((db.secondaries type).find? key).elim 0 (fun old => share a old.payer (indexObjectSize type)) := by
  rw [drift_secondary, billedSecondary, billedSecondary, FlatMap.sum_sub_erase]

end Db

end XosChain
