import XosChain.Contract.Billing

namespace XosChain

open Lib ResourceLimits Config FlatMap

namespace Db

variable {db db1 db' : Db} {p : Packing} {ctx : ApplyContext} {payer : AccountName} {ramDelta : ℤ}
  {δ δ₁ : AccountName → ℤ} {key : RowKey}

def TablesBelow (db : Db) : Prop := ∀ i t, db.tables.find? i = some t → i < db.nextTableId

structure TableStep (p : Packing) (δ : AccountName → ℤ) (db db' : Db) : Prop where
  accounts : db'.accounts = db.accounts
  permissions : db'.permissions = db.permissions
  nextPermissionId : db'.nextPermissionId = db.nextPermissionId
  generated : db'.generated = db.generated
  below : db.TablesBelow → db'.TablesBelow
  drift : db.TablesBelow → ∀ a, db'.drift p a = db.drift p a + δ a

lemma TableStep.refl (db : Db) : TableStep p 0 db db := ⟨rfl, rfl, rfl, rfl, id, fun _ _ => (add_zero _).symm⟩

lemma TableStep.trans (h : TableStep p δ db db1) (h1 : TableStep p δ₁ db1 db') : TableStep p (δ + δ₁) db db' where
  accounts := h1.accounts.trans h.accounts
  permissions := h1.permissions.trans h.permissions
  nextPermissionId := h1.nextPermissionId.trans h.nextPermissionId
  generated := h1.generated.trans h.generated
  below := h1.below ∘ h.below
  drift := by
    intro hb a
    rw [h1.drift (h.below hb) a, h.drift hb a, Pi.add_apply, add_assoc]

lemma TableStep.congr (h : TableStep p δ db db') (hd : ∀ a, δ a = δ₁ a) : TableStep p δ₁ db db' := by
  rw [← funext hd]
  exact h

lemma tableStep_of_charged (h : Charged db db' payer ramDelta) :
    TableStep p (fun a => share a payer ramDelta) db db' := by
  have hd : ∀ a, db'.drift p a = db.drift p a + share a payer ramDelta := fun a => drift_charged h
  obtain ⟨r, rfl, -⟩ := h
  exact ⟨rfl, rfl, rfl, rfl, id, fun _ => hd⟩

lemma updateDbUsage_charged (h : db.updateDbUsage ctx payer ramDelta = .ok db') : Charged db db' payer ramDelta := by
  obtain ⟨-, h⟩ := eosAssert_ok h
  obtain ⟨-, h⟩ := eosAssert_ok h
  exact addRamUsage_charged h

lemma TablesBelow.find?_next (h : db.TablesBelow) : db.tables.find? db.nextTableId = none := by
  cases hf : db.tables.find? db.nextTableId with
  | none => rfl
  | some t => exact absurd (h _ t hf) (lt_irrefl _)

lemma TablesBelow.addTable (h : db.TablesBelow) (t : TableIdObject) : (db.addTable t).TablesBelow :=
  forall_set (fun i t' ht => (h i t' ht).trans (Nat.lt_succ_self _)) (Nat.lt_succ_self _)

lemma tableStep_addTable (t : TableIdObject) :
    TableStep p (fun a => -share a t.payer tableIdObjectSize) db (db.addTable t) := by
  refine ⟨rfl, rfl, rfl, rfl, fun hb => hb.addTable t, ?_⟩
  · intro hb a
    rw [addTable, drift_setTable, hb.find?_next]
    simp

lemma findOrCreateTable_ok {code : AccountName} {scope table : ℕ} {r : ℕ × Db}
    (h : db.findOrCreateTable ctx code scope table payer = .ok r) :
    (∃ t, db.findTable code scope table = some t ∧ r = (t.1, db)) ∨
      ∃ db1, Charged db db1 payer tableIdObjectSize ∧ r = (db1.nextTableId, db1.addTable ⟨code, scope, table, payer, 0⟩) := by
  rw [findOrCreateTable] at h
  split at h
  · next t ht => exact .inl ⟨t, ht, (Except.ok.inj h).symm⟩
  · obtain ⟨db1, h1, h⟩ := bind_ok h
    exact .inr ⟨db1, updateDbUsage_charged h1, (Except.ok.inj h).symm⟩

lemma findOrCreateTable_step {code : AccountName} {scope table : ℕ} {r : ℕ × Db}
    (h : db.findOrCreateTable ctx code scope table payer = .ok r) : TableStep p 0 db r.2 := by
  obtain ⟨t, -, rfl⟩ | ⟨db1, hc, rfl⟩ := findOrCreateTable_ok h
  · exact TableStep.refl db
  · exact ((tableStep_of_charged (p := p) hc).trans (tableStep_addTable _)).congr fun a => add_neg_cancel _

variable {t : TableIdObject} {i : ℕ} {oldPayer : AccountName} {oldSize newSize : ℤ} {scope table id : ℕ} {value : Bytes}

lemma cachedTable_ok (h : db.cachedTable key = .ok t) : db.tables.find? (ofLex key).1 = some t := by
  rw [cachedTable] at h
  cases hf : db.tables.find? (ofLex key).1 with
  | none =>
    rw [hf] at h
    cases h
  | some t' =>
    rw [hf] at h
    rw [Except.ok.inj h]

lemma tableStep_setCount (ht : db.tables.find? i = some t) (count : ℕ) :
    TableStep p 0 db { db with tables := db.tables.set i { t with count } } := by
  refine ⟨rfl, rfl, rfl, rfl, fun hb => forall_set hb (hb i t ht), ?_⟩
  intro _ a
  rw [drift_setTable, ht]
  simp

lemma tableStep_eraseTable (ht : db.tables.find? i = some t) :
    TableStep p (fun a => share a t.payer tableIdObjectSize) db { db with tables := db.tables.erase i } := by
  refine ⟨rfl, rfl, rfl, rfl, forall_erase, ?_⟩
  intro _ a
  rw [drift_eraseTable, ht]
  rfl

lemma countRow_step (h : db.countRow key = .ok db') : TableStep p 0 db db' := by
  obtain ⟨t, ht, h⟩ := bind_ok h
  cases h
  exact tableStep_setCount (cachedTable_ok ht) _

lemma removeTable_step (ht : db.tables.find? i = some t)
    (h : db.removeTable ctx i t = .ok db') : TableStep p 0 db db' := by
  obtain ⟨db1, h1, h⟩ := bind_ok h
  cases h
  have hc := updateDbUsage_charged h1
  have hs := tableStep_of_charged (p := p) hc
  obtain ⟨r, rfl, -⟩ := hc
  exact (hs.trans (tableStep_eraseTable ht)).congr (fun a => by simp [share_neg])

lemma uncountRow_step (h : db.uncountRow ctx key = .ok db') : TableStep p 0 db db' := by
  obtain ⟨t, ht, h⟩ := bind_ok h
  have hs := tableStep_setCount (p := p) (cachedTable_ok ht) ((t.count + uint32Max) % 2 ^ 32)
  dsimp only at h
  split_ifs at h with hz
  · exact (hs.trans (removeTable_step (find?_set_self _ _ _) h)).congr (fun a => by simp)
  · cases h
    exact hs

lemma moveDbUsage_ok
    (h : db.moveDbUsage ctx oldPayer payer oldSize newSize = .ok db') :
    ∃ r, db' = { db with resources := r } ∧
      ∀ a, db'.drift p a = db.drift p a + (share a payer newSize - share a oldPayer oldSize) := by
  rw [moveDbUsage] at h
  split_ifs at h with hp hs
  · obtain ⟨db1, h1, h⟩ := bind_ok h
    have hc1 := updateDbUsage_charged h1
    have hc := updateDbUsage_charged h
    have hd : ∀ a, db'.drift p a = db.drift p a + (share a payer newSize - share a oldPayer oldSize) := by
      intro a
      rw [drift_charged hc, drift_charged hc1, share_neg]
      ring
    obtain ⟨r1, rfl, -⟩ := hc1
    obtain ⟨r, rfl, -⟩ := hc
    exact ⟨r, rfl, hd⟩
  · have hc := updateDbUsage_charged h
    have hd : ∀ a, db'.drift p a = db.drift p a + (share a payer newSize - share a oldPayer oldSize) := by
      intro a
      rw [drift_charged hc, share_sub, not_not.mp hp]
    obtain ⟨r, rfl, -⟩ := hc
    exact ⟨r, rfl, hd⟩
  · cases h
    refine ⟨db.resources, rfl, ?_⟩
    intro a
    rw [not_not.mp hp, not_not.mp hs, sub_self, add_zero]

lemma moveDbUsage_resources
    (h : db.moveDbUsage ctx oldPayer payer oldSize newSize = .ok db') : ∃ r, db' = { db with resources := r } := by
  obtain ⟨r, hr, -⟩ := moveDbUsage_ok (p := ⟨fun _ => 0, fun _ => 0⟩) h
  exact ⟨r, hr⟩

lemma createTableRow_ok {ν : Type} {m m' : FlatMap RowKey ν} {row : ν} (h : createTableRow m key row = .ok m') :
    m.find? key = none ∧ m' = m.set key row := by
  rw [createTableRow] at h
  split_ifs at h with hc
  cases h
  exact ⟨by simpa [contains] using hc, rfl⟩

lemma iteratedRow_ok {ν : Type} {m : FlatMap RowKey ν} {row : ν} (h : iteratedRow m key = .ok row) :
    m.find? key = some row := by
  rw [iteratedRow] at h
  cases hf : m.find? key with
  | none =>
    rw [hf] at h
    cases h
  | some row' =>
    rw [hf] at h
    rw [Except.ok.inj h]

abbrev Row : Index → Type
  | .keyValue => KeyValueObject
  | .secondary _ => IndexObject

def rowPayer : (i : Index) → Row i → AccountName
  | .keyValue, row => row.payer
  | .secondary _, row => row.payer

def rowSize : (i : Index) → Row i → ℤ
  | .keyValue, row => keyValueSize row
  | .secondary type, _ => indexObjectSize type

def rowsOf (db : Db) : (i : Index) → FlatMap RowKey (Row i)
  | .keyValue => db.keyValues
  | .secondary type => db.secondaries type

def withRows (db : Db) : (i : Index) → FlatMap RowKey (Row i) → Db
  | .keyValue, keyValues => { db with keyValues }
  | .secondary type, m => db.setSecondary type m

def StoresRow (ctx : ApplyContext) (scope table : ℕ) (payer : AccountName) (id : ℕ) (i : Index) (db db' : Db) : Prop :=
  ∃ tableId db1 db2, ∃ row : Row i, db.findOrCreateTable ctx ctx.receiver scope table payer = .ok (tableId, db1) ∧
    (db1.rowsOf i).find? (rowKey tableId id) = none ∧
    (db1.withRows i ((db1.rowsOf i).set (rowKey tableId id) row)).countRow (rowKey tableId id) = .ok db2 ∧
    Charged db2 db' (rowPayer i row) (rowSize i row)

def UpdatesRow (ctx : ApplyContext) (key : RowKey) (i : Index) (db db' : Db) : Prop :=
  ∃ obj row : Row i, ∃ db1, (db.rowsOf i).find? key = some obj ∧
    db.moveDbUsage ctx (rowPayer i obj) (rowPayer i row) (rowSize i obj) (rowSize i row) = .ok db1 ∧
    db' = db1.withRows i ((db1.rowsOf i).set key row)

def RemovesRow (ctx : ApplyContext) (key : RowKey) (i : Index) (db db' : Db) : Prop :=
  ∃ obj : Row i, ∃ db1, (db.rowsOf i).find? key = some obj ∧ Charged db db1 (rowPayer i obj) (-rowSize i obj) ∧
    (db1.withRows i ((db1.rowsOf i).erase key)).uncountRow ctx key = .ok db'

section

variable {i : Index}

lemma withRows_tables (m : FlatMap RowKey (Row i)) : (db.withRows i m).tables = db.tables := by cases i <;> rfl

lemma withRows_nextTableId (m : FlatMap RowKey (Row i)) : (db.withRows i m).nextTableId = db.nextTableId := by
  cases i <;> rfl

lemma tableStep_setRow (row : Row i) :
    TableStep p (fun a => ((db.rowsOf i).find? key).elim 0 (fun old => share a (rowPayer i old) (rowSize i old)) -
      share a (rowPayer i row) (rowSize i row)) db (db.withRows i ((db.rowsOf i).set key row)) := by
  cases i with
  | keyValue => exact ⟨rfl, rfl, rfl, rfl, id, fun _ _ => drift_setKeyValue⟩
  | secondary type => exact ⟨rfl, rfl, rfl, rfl, id, fun _ _ => drift_setSecondary⟩

lemma tableStep_eraseRow :
    TableStep p (fun a => ((db.rowsOf i).find? key).elim 0 fun old => share a (rowPayer i old) (rowSize i old)) db
      (db.withRows i ((db.rowsOf i).erase key)) := by
  cases i with
  | keyValue => exact ⟨rfl, rfl, rfl, rfl, id, fun _ _ => drift_eraseKeyValue⟩
  | secondary type => exact ⟨rfl, rfl, rfl, rfl, id, fun _ _ => drift_eraseSecondary⟩

lemma StoresRow.step (h : StoresRow ctx scope table payer id i db db') : TableStep p 0 db db' := by
  obtain ⟨tableId, db1, db2, row, h1, hn, h2, hc⟩ := h
  have hs := ((findOrCreateTable_step h1).trans (tableStep_setRow (p := p) row)).trans
    ((countRow_step h2).trans (tableStep_of_charged hc))
  exact hs.congr (fun a => by simp [hn])

lemma UpdatesRow.step (h : UpdatesRow ctx key i db db') : TableStep p 0 db db' := by
  obtain ⟨obj, row, db1, ho, h1, rfl⟩ := h
  obtain ⟨r, rfl, hd⟩ := moveDbUsage_ok (p := p) h1
  have hs : TableStep p _ db { db with resources := r } := ⟨rfl, rfl, rfl, rfl, id, fun _ => hd⟩
  have ho : (rowsOf { db with resources := r } i).find? key = some obj := ho
  exact (hs.trans (tableStep_setRow row)).congr fun a => by simp [ho]

lemma RemovesRow.step (h : RemovesRow ctx key i db db') : TableStep p 0 db db' := by
  obtain ⟨obj, db1, ho, hc, h⟩ := h
  have hs := tableStep_of_charged (p := p) hc
  obtain ⟨r, rfl, -⟩ := hc
  have ho : (rowsOf { db with resources := r } i).find? key = some obj := ho
  exact ((hs.trans tableStep_eraseRow).trans (uncountRow_step h)).congr fun a => by simp [ho, share_neg]

end

variable {type : IndexType} {secondaryKey : ℕ}

lemma dbStoreI64_ok (h : db.dbStoreI64 ctx scope table payer id value = .ok db') :
    StoresRow ctx scope table payer id .keyValue db db' := by
  obtain ⟨⟨tableId, db1⟩, h1, h⟩ := bind_ok h
  obtain ⟨-, h⟩ := eosAssert_ok h
  obtain ⟨m, hm, h⟩ := bind_ok h
  obtain ⟨db2, h2, hu⟩ := bind_ok h
  obtain ⟨hn, rfl⟩ := createTableRow_ok hm
  exact ⟨tableId, db1, db2, _, h1, hn, h2, updateDbUsage_charged hu⟩

lemma idxStore_ok (h : db.idxStore ctx type scope table payer id secondaryKey = .ok db') :
    StoresRow ctx scope table payer id (.secondary type) db db' := by
  obtain ⟨-, h⟩ := eosAssert_ok h
  obtain ⟨⟨tableId, db1⟩, h1, h⟩ := bind_ok h
  obtain ⟨m, hm, h⟩ := bind_ok h
  obtain ⟨db2, h2, hu⟩ := bind_ok h
  obtain ⟨hn, rfl⟩ := createTableRow_ok hm
  exact ⟨tableId, db1, db2, _, h1, hn, h2, updateDbUsage_charged hu⟩

lemma dbUpdateI64_ok (h : db.dbUpdateI64 ctx key payer value = .ok db') : UpdatesRow ctx key .keyValue db db' := by
  obtain ⟨obj, ho, h⟩ := bind_ok h
  obtain ⟨-, -, h⟩ := bind_ok h
  obtain ⟨db1, h1, h⟩ := bind_ok h
  exact ⟨obj, _, db1, iteratedRow_ok ho, h1, (Except.ok.inj h).symm⟩

lemma idxUpdate_ok (h : db.idxUpdate ctx type key payer secondaryKey = .ok db') :
    UpdatesRow ctx key (.secondary type) db db' := by
  obtain ⟨obj, ho, h⟩ := bind_ok h
  obtain ⟨-, -, h⟩ := bind_ok h
  obtain ⟨db1, h1, h⟩ := bind_ok h
  exact ⟨obj, _, db1, iteratedRow_ok ho, h1, (Except.ok.inj h).symm⟩

lemma dbRemoveI64_ok (h : db.dbRemoveI64 ctx key = .ok db') : RemovesRow ctx key .keyValue db db' := by
  obtain ⟨obj, ho, h⟩ := bind_ok h
  obtain ⟨-, -, h⟩ := bind_ok h
  obtain ⟨db1, h1, h⟩ := bind_ok h
  exact ⟨obj, db1, iteratedRow_ok ho, updateDbUsage_charged h1, h⟩

lemma idxRemove_ok (h : db.idxRemove ctx type key = .ok db') : RemovesRow ctx key (.secondary type) db db' := by
  obtain ⟨obj, ho, h⟩ := bind_ok h
  obtain ⟨db1, h1, h⟩ := bind_ok h
  obtain ⟨-, -, h⟩ := bind_ok h
  exact ⟨obj, db1, iteratedRow_ok ho, updateDbUsage_charged h1, h⟩

end Db

end XosChain
