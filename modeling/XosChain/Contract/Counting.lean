import XosChain.Contract.Accounting

namespace XosChain

open Lib Config FlatMap ResourceLimits IndexType

def rowsIn {ν : Type} (m : FlatMap RowKey ν) (i : ℕ) : ℕ := m.keys.countP fun k => (ofLex k).1 = i

section

variable {ν : Type} {m : FlatMap RowKey ν} {key : RowKey}

lemma rowsIn_set_new (h : m.find? key = none) (row : ν) (i : ℕ) :
    rowsIn (m.set key row) i = rowsIn m i + if (ofLex key).1 = i then 1 else 0 := by
  rw [rowsIn, countP_keys_set, erase_of_none h, rowsIn]
  split_ifs with hi <;> simp [hi]

lemma rowsIn_erase {row : ν} (h : m.find? key = some row) (i : ℕ) :
    rowsIn (m.erase key) i + (if (ofLex key).1 = i then 1 else 0) = rowsIn m i := by
  rw [rowsIn, rowsIn, ← countP_keys_erase h]
  split_ifs with hi <;> simp [hi]

lemma rowsIn_set_old {old : ν} (h : m.find? key = some old) (row : ν) (i : ℕ) :
    rowsIn (m.set key row) i = rowsIn m i := by
  rw [rowsIn, countP_keys_set, countP_keys_erase h, rowsIn]

lemma rowsIn_le_size (m : FlatMap RowKey ν) (i : ℕ) : rowsIn m i ≤ m.size := by
  refine List.countP_le_length.trans ?_
  rw [keys, List.length_map, size]

lemma rowsIn_pos {row : ν} (h : m.find? key = some row) : rowsIn m (ofLex key).1 ≠ 0 := by
  have := rowsIn_erase h (ofLex key).1
  rw [if_pos rfl] at this
  omega

end

namespace Db

variable {db db1 db2 db' start : Db} {rt : Runtime} {ctx : ApplyContext} {payer : AccountName} {key : RowKey} {i j : ℕ}
  {scope table secondaryKey : ℕ}

def rows (db : Db) (i : ℕ) : ℕ :=
  rowsIn db.keyValues i + (all.map fun type => rowsIn (db.secondaries type) i).sum

lemma rows_setSecondary (db : Db) (type : IndexType) (m : FlatMap RowKey IndexObject) (i : ℕ) :
    (db.setSecondary type m).rows i + rowsIn (db.secondaries type) i = db.rows i + rowsIn m i := by
  cases type <;> simp [rows, setSecondary, all, Function.update] <;> omega

lemma rows_withRows (db : Db) {i : Index} (m : FlatMap RowKey (Row i)) (n : ℕ) :
    (db.withRows i m).rows n + rowsIn (db.rowsOf i) n = db.rows n + rowsIn m n := by
  cases i with
  | keyValue =>
    simp only [rows, withRows, rowsOf]
    omega
  | secondary type => exact rows_setSecondary db type m n

lemma rowsIn_le_rows (db : Db) (type : IndexType) (i : ℕ) : rowsIn (db.secondaries type) i ≤ db.rows i := by
  cases type <;> simp [rows, all] <;> omega

def Small (db : Db) : Prop := ∀ i, db.rows i < 2 ^ 32

def size (db : Db) : ℕ := db.keyValues.size + (all.map fun type => (db.secondaries type).size).sum

lemma small_of_size (h : db.size < 2 ^ 32) : db.Small := by
  intro i
  refine lt_of_le_of_lt (Nat.add_le_add (rowsIn_le_size _ i) ?_) h
  exact List.sum_le_sum fun type _ => rowsIn_le_size _ i

structure Tallied (db : Db) : Prop where
  below : db.TablesBelow
  count : ∀ i t, db.tables.find? i = some t → t.count = db.rows i
  owned : ∀ i, db.tables.find? i = none → db.rows i = 0

structure Counted (db : Db) : Prop extends Tallied db where
  kept : ∀ i t, db.tables.find? i = some t → t.count ≠ 0

lemma Counted.congr (h : Counted db) (ht : db'.tables = db.tables) (hn : db'.nextTableId = db.nextTableId)
    (hr : ∀ i, db'.rows i = db.rows i) : Counted db' := by
  refine ⟨⟨?_, ?_, ?_⟩, ?_⟩
  · rw [TablesBelow, ht, hn]
    exact h.below
  · intro i t hi
    rw [hr]
    exact h.count i t (ht ▸ hi)
  · intro i hi
    rw [hr]
    exact h.owned i (ht ▸ hi)
  · intro i t hi
    exact h.kept i t (ht ▸ hi)

lemma findOrCreateTable_tallied (h : Counted db) {code : AccountName}
    (hf : db.findOrCreateTable ctx code scope table payer = .ok (j, db1)) :
    Tallied db1 ∧ (∀ i t, i ≠ j → db1.tables.find? i = some t → t.count ≠ 0) ∧ ∀ i, db1.rows i = db.rows i := by
  obtain ⟨t, -, hr⟩ | ⟨db2, ⟨r, rfl, -⟩, hr⟩ := findOrCreateTable_ok hf <;> cases hr
  · exact ⟨h.toTallied, fun i t _ hi => h.kept i t hi, fun _ => rfl⟩
  · refine ⟨⟨?_, ?_, ?_⟩, ?_, fun _ => rfl⟩
    · exact h.below.addTable _
    · exact forall_set h.count (h.owned _ h.below.find?_next).symm
    · intro i hi
      rw [addTable, find?_set] at hi
      split_ifs at hi
      exact h.owned i hi
    · intro i t hne hi
      rw [addTable, find?_set_of_ne _ _ (Ne.symm hne)] at hi
      exact h.kept i t hi

lemma Tallied.replace (h : Tallied db) (row : Option TableIdObject)
    (hkept : ∀ i t, i ≠ j → db.tables.find? i = some t → t.count ≠ 0) (hj : j < db.nextTableId)
    (ht : ∀ i, db'.tables.find? i = if j = i then row else db.tables.find? i) (hn : db'.nextTableId = db.nextTableId)
    (hother : ∀ i, j ≠ i → db'.rows i = db.rows i) (hrow : ∀ t ∈ row, t.count = db'.rows j ∧ t.count ≠ 0)
    (hnone : row = none → db'.rows j = 0) : Counted db' := by
  have hcases : ∀ i t, db'.tables.find? i = some t → j = i ∧ t ∈ row ∨ j ≠ i ∧ db.tables.find? i = some t := by
    intro i t hi
    rw [ht] at hi
    split_ifs at hi with he
    · exact .inl ⟨he, hi⟩
    · exact .inr ⟨he, hi⟩
  refine ⟨⟨?_, ?_, ?_⟩, ?_⟩
  · intro i t hi
    rw [hn]
    rcases hcases i t hi with ⟨rfl, -⟩ | ⟨-, hi⟩
    · exact hj
    · exact h.below i t hi
  · intro i t hi
    rcases hcases i t hi with ⟨rfl, ht⟩ | ⟨he, hi⟩
    · exact (hrow t ht).1
    · rw [hother i he, h.count i t hi]
  · intro i hi
    rw [ht] at hi
    split_ifs at hi with he
    · exact he ▸ hnone hi
    · rw [hother i he, h.owned i hi]
  · intro i t hi
    rcases hcases i t hi with ⟨rfl, ht⟩ | ⟨he, hi⟩
    · exact (hrow t ht).2
    · exact hkept i t (Ne.symm he) hi

lemma countRow_counted (hc : db1.countRow key = .ok db') (h : Tallied db)
    (hkept : ∀ i t, i ≠ (ofLex key).1 → db.tables.find? i = some t → t.count ≠ 0)
    (ht : db1.tables = db.tables) (hn : db1.nextTableId = db.nextTableId)
    (hadd : ∀ i, db1.rows i = db.rows i + if (ofLex key).1 = i then 1 else 0) (hsmall : db'.Small) :
    Counted db' := by
  obtain ⟨t, hfind, hc⟩ := bind_ok hc
  cases hc
  have hfind := cachedTable_ok hfind
  rw [ht] at hfind
  have hrows := hadd (ofLex key).1
  rw [if_pos rfl, ← h.count _ t hfind] at hrows
  have hsmall : db1.rows (ofLex key).1 < 2 ^ 32 := hsmall (ofLex key).1
  have hcount : (t.count + 1) % 2 ^ 32 = db1.rows (ofLex key).1 := by omega
  refine h.replace (some { t with count := (t.count + 1) % 2 ^ 32 }) hkept (h.below _ t hfind) (fun i => ?_) hn
    (fun i hi => ?_) ?_ nofun
  · rw [ht, find?_set]
  · exact (hadd i).trans (by rw [if_neg hi, add_zero])
  · rintro _ ⟨⟩
    exact ⟨hcount, by dsimp only; omega⟩

lemma uncountRow_counted (hc : db1.uncountRow ctx key = .ok db') (h : Counted db) (ht : db1.tables = db.tables)
    (hn : db1.nextTableId = db.nextTableId)
    (hsub : ∀ i, db1.rows i + (if (ofLex key).1 = i then 1 else 0) = db.rows i)
    (hsmall : db.Small) : Counted db' := by
  have hsmall := hsmall (ofLex key).1
  obtain ⟨t, hfind, hc⟩ := bind_ok hc
  have hfind := cachedTable_ok hfind
  rw [ht] at hfind
  have hrows := hsub (ofLex key).1
  rw [if_pos rfl, ← h.count _ t hfind] at hrows
  rw [← h.count _ t hfind] at hsmall
  have hcount : (t.count + uint32Max) % 2 ^ 32 = db1.rows (ofLex key).1 := by
    rw [uint32Max]
    omega
  have hother : ∀ i, (ofLex key).1 ≠ i → db1.rows i = db.rows i := by
    intro i hne
    have := hsub i
    rwa [if_neg hne, add_zero] at this
  have hkept := fun i t (_ : i ≠ (ofLex key).1) => h.kept i t
  have hj := h.below _ t hfind
  dsimp only at hc
  split_ifs at hc with hz
  · obtain ⟨db2, h2, hc⟩ := bind_ok hc
    cases hc
    obtain ⟨r, rfl, -⟩ := updateDbUsage_charged h2
    refine h.toTallied.replace none hkept hj (fun i => ?_) hn hother nofun fun _ => hcount.symm.trans hz
    rw [find?_erase, find?_set, ht]
    split_ifs <;> rfl
  · cases hc
    refine h.toTallied.replace (some { t with count := (t.count + uint32Max) % 2 ^ 32 }) hkept hj (fun i => ?_) hn hother
      ?_ nofun
    · rw [find?_set, ht]
    · rintro _ ⟨⟩
      exact ⟨hcount, hz⟩

section

variable {i : Index}

lemma StoresRow.counted {id : ℕ} (hs : StoresRow ctx scope table payer id i db db') (h : Counted db)
    (hsmall : db'.Small) : Counted db' := by
  obtain ⟨tableId, db1, db2, row, h1, hnew, h2, r, rfl, -⟩ := hs
  obtain ⟨htallied, hkept, -⟩ := findOrCreateTable_tallied h h1
  refine (countRow_counted h2 htallied hkept ?_ ?_ (fun n => ?_) ?_).congr rfl rfl fun _ => rfl
  · exact (withRows_tables _)
  · exact (withRows_nextTableId _)
  · have hset := rows_withRows db1 ((db1.rowsOf i).set (rowKey tableId id) row) n
    rw [rowsIn_set_new hnew] at hset
    omega
  · exact hsmall

lemma UpdatesRow.counted (hs : UpdatesRow ctx key i db db') (h : Counted db) : Counted db' := by
  obtain ⟨obj, row, db1, ho, h1, rfl⟩ := hs
  obtain ⟨r, rfl⟩ := moveDbUsage_resources h1
  refine h.congr (withRows_tables _) (withRows_nextTableId _) fun n => ?_
  have hset := rows_withRows { db with resources := r } ((db.rowsOf i).set key row) n
  change _ + rowsIn (db.rowsOf i) n = _ at hset
  rw [rowsIn_set_old ho] at hset
  exact Nat.add_right_cancel hset

lemma RemovesRow.counted (hs : RemovesRow ctx key i db db') (h : Counted db) (hsmall : db.Small) : Counted db' := by
  obtain ⟨obj, db1, ho, ⟨r, rfl, -⟩, hs⟩ := hs
  refine uncountRow_counted hs h (withRows_tables _) (withRows_nextTableId _) (fun n => ?_) hsmall
  have hset := rows_withRows { db with resources := r } ((db.rowsOf i).erase key) n
  have herase := rowsIn_erase ho n
  change _ + rowsIn (db.rowsOf i) n = db.rows n + _ at hset
  change (withRows { db with resources := r } i ((db.rowsOf i).erase key)).rows n + _ = db.rows n
  omega

end

variable {type : IndexType} {n : ℕ}

lemma applyOp_counted {op : ChainOp} (h : Counted db) (hsmall : db.Small) (hsmall' : db'.Small)
    (hs : db.applyOp rt op = .ok db') : Counted db' := by
  cases ho : op.onTables with
  | false =>
    have same := applyOp_sameTables ho hs
    refine h.congr same.tables same.nextTableId fun i => ?_
    rw [rows, rows, same.keyValues, same.secondaries]
  | true =>
    cases op with
    | dbStore ctx scope table payer id value => exact (dbStoreI64_ok hs).counted h hsmall'
    | dbUpdate ctx iterator payer value => exact (dbUpdateI64_ok hs).counted h
    | dbRemove ctx iterator => exact (dbRemoveI64_ok hs).counted h hsmall
    | idxStore ctx type scope table payer id secondaryKey => exact (idxStore_ok hs).counted h hsmall'
    | idxUpdate ctx type iterator payer secondaryKey => exact (idxUpdate_ok hs).counted h
    | idxRemove ctx type iterator => exact (idxRemove_ok hs).counted h hsmall
    | native | scheduleDeferred | cancelDeferred | delay | retire => cases ho

lemma genesis_counted {initialKey : PublicKey} {abi : Bytes} {time : ℕ} (hg : genesis initialKey abi time = .ok start) :
    Counted start ∧ start.Small := by
  have same := (genesis_rows hg).2
  have hrows : ∀ i, start.rows i = 0 := by
    intro i
    rw [rows, same.keyValues, same.secondaries]
    rfl
  refine ⟨⟨⟨?_, ?_, fun i _ => hrows i⟩, ?_⟩, fun i => ?_⟩
  · rw [TablesBelow, same.tables]
    intro i t hi
    cases hi
  · rw [same.tables]
    intro i t hi
    cases hi
  · rw [same.tables]
    intro i t hi
    cases hi
  · rw [hrows]
    decide

def StaysSmall (rt : Runtime) (db : Db) (op : ChainOp) : Prop := ∀ db', db.applyOp rt op = .ok db' → db'.Small

lemma ChainRun.counted (h : ChainRun rt (StaysSmall rt) start db) (hc : Counted start) (hs : start.Small) :
    Counted db ∧ db.Small := by
  induction h with
  | start => exact ⟨hc, hs⟩
  | step op _ ha hop ih => exact ⟨applyOp_counted ih.1 ih.2 (ha _ hop) hop, ha _ hop⟩

lemma Counted.table_of_row (h : Counted db) (hrow : db.rows i ≠ 0) : ∃ t, db.tables.find? i = some t := by
  cases ht : db.tables.find? i with
  | none => exact absurd (h.owned i ht) hrow
  | some t => exact ⟨t, rfl⟩

theorem tables_count_their_rows {initialKey : PublicKey} {abi : Bytes} {time : ℕ}
    (hg : genesis initialKey abi time = .ok start) (hr : ChainRun rt (StaysSmall rt) start db) :
    (∀ i t, db.tables.find? i = some t → t.count = db.rows i ∧ t.count ≠ 0) ∧
      (∀ k row, db.keyValues.find? k = some row → ∃ t, db.tables.find? (ofLex k).1 = some t) ∧
      ∀ type k row, (db.secondaries type).find? k = some row → ∃ t, db.tables.find? (ofLex k).1 = some t := by
  obtain ⟨hc, -⟩ := hr.counted (genesis_counted hg).1 (genesis_counted hg).2
  refine ⟨fun i t ht => ⟨hc.count i t ht, hc.kept i t ht⟩, ?_, ?_⟩
  · intro k row hrow
    have hpos := rowsIn_pos hrow
    refine hc.table_of_row ?_
    rw [rows]
    omega
  · intro type k row hrow
    have hpos := rowsIn_pos hrow
    have hle := rowsIn_le_rows db type (ofLex k).1
    exact hc.table_of_row (by omega)

def storeNext (n : ℕ) : ChainOp := .dbStore systemContext 1 2 systemAccountName n []

theorem two_rows_counted : ∃ start first db, genesis 7 [] 0 = .ok start ∧
    start.applyOp delayRuntime (storeNext 0) = .ok first ∧
    first.applyOp delayRuntime (.idxStore systemContext .index64 1 2 systemAccountName 0 9) = .ok db ∧
    db.rows 0 = 2 ∧ ∀ i t, db.tables.find? i = some t → t.count = db.rows i ∧ t.count ≠ 0 := by
  have hok : (genesis 7 [] 0 >>= fun start => start.applyOp delayRuntime (storeNext 0) >>= fun first =>
      (first.applyOp delayRuntime (.idxStore systemContext .index64 1 2 systemAccountName 0 9)).map
        (first, ·)).map (fun r => (r.1.size, r.2.size, r.2.rows 0)) = .ok (1, 2, 2) := by decide +kernel
  obtain ⟨⟨first, db⟩, hrun, hview⟩ := exists_of_map_ok hok
  obtain ⟨start, hg, hrun⟩ := bind_ok hrun
  obtain ⟨first', hfirst, hrun⟩ := bind_ok hrun
  obtain ⟨db', hdb, he⟩ := exists_of_map_ok hrun
  obtain ⟨rfl, rfl⟩ := Prod.mk.inj he
  obtain ⟨hsize, hview⟩ := Prod.mk.inj hview
  obtain ⟨hsize', hrows⟩ := Prod.mk.inj hview
  have hsmall : StaysSmall delayRuntime start (storeNext 0) := by
    intro d hd
    obtain rfl := Except.ok.inj (hfirst.symm.trans hd)
    exact small_of_size (hsize.trans_lt (by decide))
  have hsmall' : StaysSmall delayRuntime first' (.idxStore systemContext .index64 1 2 systemAccountName 0 9) := by
    intro d hd
    obtain rfl := Except.ok.inj (hdb.symm.trans hd)
    exact small_of_size (hsize'.trans_lt (by decide))
  exact ⟨start, first', db', hg, hfirst, hdb, hrows,
    (tables_count_their_rows hg (.step _ (.step _ .start hsmall hfirst) hsmall' hdb)).1⟩

def filledTable (n : ℕ) : TableIdObject :=
  { code := systemAccountName, scope := 1, table := 2, payer := systemAccountName, count := n % 2 ^ 32 }

structure Filled (n : ℕ) (db : Db) : Prop where
  table : db.tables = empty.set 0 (filledTable n)
  free : ∀ k, n ≤ k → db.keyValues.find? (rowKey 0 k) = none
  rows : db.rows 0 = n
  usage : ∃ u, db.resources.usage.find? systemAccountName = some u ∧ u.ramUsage ≤ 10000 + 112 * n

lemma updateDbUsage_system (db : Db) {usage : ResourceUsage} (hn : 0 < n)
    (h : db.resources.usage.find? systemAccountName = some usage) (hle : usage.ramUsage + n ≤ uint64Max) :
    db.updateDbUsage systemContext systemAccountName n = .ok { db with resources := { db.resources with
      usage := db.resources.usage.set systemAccountName { usage with ramUsage := usage.ramUsage + n } } } := by
  have hadd : db.resources.addPendingRamUsage systemAccountName n = .ok { db.resources with
      usage := db.resources.usage.set systemAccountName { usage with ramUsage := usage.ramUsage + n } } := by
    rw [Db.addPendingRamUsage, if_neg (by omega)]
    exact result_bind.mpr ⟨usage, getRow_ok.mpr h,
      eosAssert_bind.mpr ⟨by omega, eosAssert_bind.mpr ⟨by omega, rfl⟩⟩⟩
  exact eosAssert_bind.mpr ⟨fun _ => .inl rfl, eosAssert_bind.mpr ⟨fun _ => .inl rfl,
    result_bind.mpr ⟨_, hadd, rfl⟩⟩⟩

def withNext (db : Db) (n : ℕ) : Db :=
  { db with
    tables := db.tables.set 0 (filledTable (n + 1))
    keyValues := db.keyValues.set (rowKey 0 n) { payer := systemAccountName, value := [] } }

lemma Filled.countRow (h : Filled n db) :
    Db.countRow { db with keyValues := (db.withNext n).keyValues } (rowKey 0 n) = .ok (db.withNext n) := by
  have hfind : db.tables.find? (ofLex (rowKey 0 n)).1 = some (filledTable n) := by
    rw [h.table]
    rfl
  refine result_bind.mpr ⟨filledTable n, ?_, ?_⟩
  · rw [cachedTable]
    simp only [hfind]
    rfl
  · have hmod : (n % 2 ^ 32 + 1) % 2 ^ 32 = (n + 1) % 2 ^ 32 := Nat.mod_add_mod n _ 1
    rw [withNext, filledTable, filledTable, ← hmod]
    rfl

lemma Filled.storeNext_ok (rt : Runtime) (h : Filled n db) (hn : n < 2 ^ 32) :
    ∃ r u, db.applyOp rt (storeNext n) = .ok { db.withNext n with resources := r } ∧
      r.usage.find? systemAccountName = some u ∧ u.ramUsage ≤ 10000 + 112 * (n + 1) := by
  obtain ⟨usage, husage, hle⟩ := h.usage
  have hfind : db.findTable systemAccountName 1 2 = some (0, filledTable n) := by
    rw [findTable, h.table]
    rfl
  have hcreate : createTableRow db.keyValues (rowKey 0 n) { payer := systemAccountName, value := [] } =
      .ok (db.withNext n).keyValues := by
    rw [createTableRow, contains, h.free n le_rfl]
    rfl
  have hcharge := updateDbUsage_system (db.withNext n) (n := 112) (by decide) husage (by rw [uint64Max]; omega)
  refine ⟨_, { usage with ramUsage := usage.ramUsage + 112 }, result_bind.mpr ⟨(0, db), ?_, eosAssert_bind.mpr
    ⟨by decide, result_bind.mpr ⟨_, hcreate, result_bind.mpr ⟨_, h.countRow, hcharge⟩⟩⟩⟩, ?_, ?_⟩
  · have hreceiver : systemContext.receiver = systemAccountName := rfl
    simp only [findOrCreateTable, hreceiver, hfind]
    rfl
  · exact find?_set_self _ _ _
  · change usage.ramUsage + 112 ≤ _
    omega

lemma rowKey_ne {n k : ℕ} (h : n ≠ k) : rowKey i n ≠ rowKey i k := fun he => h (Prod.mk.inj (toLex.injective he)).2

lemma Filled.next (rt : Runtime) (h : Filled n db) (hn : n < 2 ^ 32) :
    ∃ db', db.applyOp rt (storeNext n) = .ok db' ∧ Filled (n + 1) db' := by
  obtain ⟨r, u, hs, hu, hle⟩ := h.storeNext_ok rt hn
  refine ⟨_, hs, ?_, ?_, ?_, u, hu, hle⟩
  · rw [withNext, h.table]
    rfl
  · intro k hk
    have hne : rowKey 0 n ≠ rowKey 0 k := rowKey_ne (by omega)
    rw [withNext, find?_set_of_ne _ _ hne]
    exact h.free k (by omega)
  · have hrows : (db.withNext n).rows 0 = db.rows 0 + 1 := by
      have hset := rowsIn_set_new (h.free n le_rfl) { payer := systemAccountName, value := [] } 0
      have hz : (ofLex (rowKey 0 n)).1 = 0 := rfl
      rw [if_pos hz] at hset
      simp only [Db.rows, withNext, hset]
      omega
    exact hrows.trans (congrArg (· + 1) h.rows)

lemma exists_filled : ∃ start, genesis 7 [] 0 = .ok start ∧ ∀ n, 1 ≤ n → n ≤ 2 ^ 32 →
    ∃ db, ChainRun delayRuntime (fun _ _ => True) start db ∧ Filled n db := by
  have hok : (genesis 7 [] 0 >>= fun start => start.applyOp delayRuntime (storeNext 0)).map
      (fun db => (db.tables, db.keyValues, db.rows 0, db.resources.usage.find? systemAccountName)) =
      .ok (empty.set 0 (filledTable 1), empty.set (rowKey 0 0) ⟨systemAccountName, []⟩, 1,
        some { ramUsage := 2948 }) := by decide +kernel
  obtain ⟨first, hfirst, hview⟩ := exists_of_map_ok hok
  obtain ⟨start, hg, hs⟩ := bind_ok hfirst
  obtain ⟨htables, hview⟩ := Prod.mk.inj hview
  obtain ⟨hkeys, hview⟩ := Prod.mk.inj hview
  obtain ⟨hrows, husage⟩ := Prod.mk.inj hview
  refine ⟨start, hg, fun n hn => ?_⟩
  induction n, hn using Nat.le_induction with
  | base =>
    intro _
    refine ⟨first, .step _ .start trivial hs, htables, ?_, hrows, _, husage, by decide⟩
    intro k hk
    have hne : rowKey 0 0 ≠ rowKey 0 k := rowKey_ne (by omega)
    rw [hkeys, find?_set_of_ne _ _ hne]
    rfl
  | succ n hn ih =>
    intro hle
    obtain ⟨db, hrun, hfilled⟩ := ih (by omega)
    obtain ⟨db', hs, hfilled⟩ := hfilled.next delayRuntime (by omega)
    exact ⟨db', .step _ hrun trivial hs, hfilled⟩

theorem counter_wraps : ∃ start db t, genesis 7 [] 0 = .ok start ∧
    ChainRun delayRuntime (fun _ _ => True) start db ∧ db.tables.find? 0 = some t ∧ t.count = 0 ∧
    db.rows 0 = 2 ^ 32 := by
  obtain ⟨start, hg, hfill⟩ := exists_filled
  obtain ⟨db, hrun, hfilled⟩ := hfill (2 ^ 32) (by decide) le_rfl
  refine ⟨start, db, filledTable (2 ^ 32), hg, hrun, ?_, by decide, hfilled.rows⟩
  rw [hfilled.table]
  exact find?_set_self _ _ _

end Db

end XosChain
