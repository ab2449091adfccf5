import XosChain.Contract.Intrinsics

namespace XosChain

open Lib FlatMap

namespace Db

variable {db db1 db' start : Db} {rt : Runtime} {ctx : ApplyContext} {payer : AccountName} {key : RowKey} {i : Index}
  {scope table id secondaryKey : ℕ}

structure FreshIds (db db' : Db) : Prop where
  next : db.nextTableId ≤ db'.nextTableId
  fresh : ∀ id, db'.tables.contains id = true → db.tables.contains id = true ∨ db.nextTableId ≤ id

lemma FreshIds.of_eq (hn : db'.nextTableId = db.nextTableId) (ht : db'.tables = db.tables) : FreshIds db db' :=
  ⟨hn.ge, fun _ h => .inl (ht ▸ h)⟩

lemma FreshIds.trans (h : FreshIds db db1) (h1 : FreshIds db1 db') : FreshIds db db' where
  next := h.next.trans h1.next
  fresh := by
    intro id hid
    rcases h1.fresh id hid with hid | hid
    · exact h.fresh id hid
    · exact .inr (h.next.trans hid)

lemma findOrCreateTable_fresh {tableId : ℕ} {code : AccountName}
    (h : db.findOrCreateTable ctx code scope table payer = .ok (tableId, db1)) :
    FreshIds db db1 ∧ db1.tables.contains tableId = true ∧ ∀ i, db1.rowKeys i = db.rowKeys i := by
  obtain ⟨t, ht, hr⟩ | ⟨db2, ⟨r, rfl, -⟩, hr⟩ := findOrCreateTable_ok h <;> cases hr
  · have hm := (db.tables.find?_eq_some_iff t.1 t.2).mpr (List.mem_of_find?_eq_some ht)
    exact ⟨.of_eq rfl rfl, (db.tables.contains_iff t.1).mpr ⟨_, hm⟩, fun _ => rfl⟩
  · refine ⟨⟨Nat.le_succ _, ?_⟩, ?_, fun i => by cases i <;> rfl⟩
    · intro id hid
      rcases (contains_set _ _ _ _).mp hid with he | hid
      · exact .inr he.le
      · exact .inl hid
    · exact (contains_set _ _ _ _).mpr (.inl rfl)

lemma FreshIds.setTable (h : db.tables.contains id = true) (t : TableIdObject) :
    FreshIds db { db with tables := db.tables.set id t } := by
  refine ⟨le_rfl, ?_⟩
  intro id' hid
  rcases (contains_set _ _ _ _).mp hid with rfl | hid
  · exact .inl h
  · exact .inl hid

lemma countRow_fresh (h : db.countRow key = .ok db') :
    FreshIds db db' ∧ db'.tables.contains key.table = true ∧ ∀ i, db'.rowKeys i = db.rowKeys i := by
  obtain ⟨t, ht, h⟩ := bind_ok h
  cases h
  have ht := (db.tables.contains_iff _).mpr ⟨t, cachedTable_ok ht⟩
  exact ⟨.setTable ht _, (contains_set _ _ _ _).mpr (.inl rfl), fun i => by cases i <;> rfl⟩

lemma uncountRow_fresh (h : db.uncountRow ctx key = .ok db') :
    FreshIds db db' ∧ ∀ i, db'.rowKeys i = db.rowKeys i := by
  obtain ⟨t, ht, h⟩ := bind_ok h
  have ht := (db.tables.contains_iff _).mpr ⟨t, cachedTable_ok ht⟩
  have hset := FreshIds.setTable ht { t with count := (t.count + uint32Max) % 2 ^ 32 }
  dsimp only at h
  split_ifs at h with hz
  · obtain ⟨db2, h2, h⟩ := bind_ok h
    cases h
    obtain ⟨r, rfl, -⟩ := updateDbUsage_charged h2
    refine ⟨hset.trans ⟨le_rfl, ?_⟩, fun i => by cases i <;> rfl⟩
    intro id hid
    exact .inl ((contains_erase _ _ _).mp hid).2
  · cases h
    exact ⟨hset, fun i => by cases i <;> rfl⟩

structure Keeps (lost : Option (Index × RowKey)) (db db' : Db) : Prop extends FreshIds db db' where
  rows : ∀ j k, k ∈ db.rowKeys j → lost ≠ some (j, k) → k ∈ db'.rowKeys j

lemma mem_rowKeys_withRows {m : FlatMap RowKey (Row i)} {j : Index} {k : RowKey} :
    k ∈ (db.withRows i m).rowKeys j ↔ if j = i then k ∈ m.keys else k ∈ db.rowKeys j := by
  cases i with
  | keyValue => cases j <;> rfl
  | secondary type =>
    cases j with
    | keyValue => rfl
    | secondary type' =>
      by_cases h : type' = type
      · subst h
        simp [rowKeys, withRows, setSecondary]
      · simp [rowKeys, withRows, setSecondary, h]

lemma keys_rowsOf : (db.rowsOf i).keys = db.rowKeys i := by cases i <;> rfl

lemma FreshIds.of_withRows {m : FlatMap RowKey (Row i)} (h : FreshIds (db.withRows i m) db') : FreshIds db db' := by
  cases i <;> exact ⟨h.next, h.fresh⟩

structure Stored (db db' : Db) (i : Index) (key : RowKey) : Prop extends Keeps none db db' where
  row : key ∈ db'.rowKeys i
  table : db'.tables.contains key.table = true

lemma StoresRow.stored (h : StoresRow ctx scope table payer id i db db') :
    ∃ tableId db1, db.findOrCreateTable ctx ctx.receiver scope table payer = .ok (tableId, db1) ∧
      Stored db db' i (rowKey tableId id) := by
  obtain ⟨tableId, db1, db2, row, h1, -, h2, r, rfl, -⟩ := h
  obtain ⟨hids, -, hrows⟩ := findOrCreateTable_fresh h1
  obtain ⟨hids', htable, hrows'⟩ := countRow_fresh h2
  have hmem : ∀ j k, k ∈ db2.rowKeys j ↔
      if j = i then k = rowKey tableId id ∨ k ∈ db1.rowKeys i else k ∈ db1.rowKeys j := by
    intro j k
    rw [hrows' j, mem_rowKeys_withRows, mem_keys_set, keys_rowsOf]
  refine ⟨tableId, db1, h1, ⟨hids.trans (hids'.of_withRows.trans (.of_eq rfl rfl)), ?_⟩, ?_, htable⟩
  · intro j k hk _
    refine (hmem j k).mpr ?_
    rw [← hrows j] at hk
    split_ifs with hj
    · subst hj
      exact .inr hk
    · exact hk
  · refine (hmem i _).mpr ?_
    rw [if_pos rfl]
    exact .inl rfl

lemma UpdatesRow.keeps (h : UpdatesRow ctx key i db db') : Keeps none db db' := by
  obtain ⟨obj, row, db1, -, h1, rfl⟩ := h
  obtain ⟨r, rfl⟩ := moveDbUsage_resources h1
  refine ⟨.of_eq (withRows_nextTableId _) (withRows_tables _), ?_⟩
  intro j k hk _
  refine mem_rowKeys_withRows.mpr ?_
  split_ifs with hj
  · subst hj
    exact (mem_keys_set _ _ _ _).mpr (.inr (keys_rowsOf ▸ hk))
  · exact hk

lemma RemovesRow.keeps (h : RemovesRow ctx key i db db') : Keeps (some (i, key)) db db' := by
  obtain ⟨obj, db1, -, ⟨r, rfl, -⟩, h⟩ := h
  obtain ⟨hids, hrows⟩ := uncountRow_fresh h
  refine ⟨⟨hids.of_withRows.next, hids.of_withRows.fresh⟩, ?_⟩
  intro j k hk hne
  rw [hrows j]
  refine mem_rowKeys_withRows.mpr ?_
  split_ifs with hj
  · subst hj
    refine (mem_keys_erase _ _ _).mpr ⟨?_, keys_rowsOf ▸ hk⟩
    rintro rfl
    exact hne rfl
  · exact hk

end Db

end XosChain
