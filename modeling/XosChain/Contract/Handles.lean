import XosChain.Contract.Counting
import XosChain.Contract.RowEffects

namespace XosChain

open Lib List Db

def IteratorCache.endTable (c : IteratorCache) (iterator : ℤ) : Option ℕ :=
  if iterator < -1 then c.endIteratorToTable[endIteratorToIndex iterator]? else none

variable {c : IteratorCache}

lemma IteratorCache.get_ok {iterator : ℤ} {key : RowKey} (h : c.get iterator = .ok key) :
    0 ≤ iterator ∧ c.objects.holder iterator.toNat = some key := by
  obtain ⟨-, h⟩ := eosAssert_ok h
  obtain ⟨h0, h⟩ := eosAssert_ok h
  obtain ⟨-, h⟩ := eosAssert_ok h
  refine ⟨h0, ?_⟩
  split at h
  · rename_i k hk
    rw [hk, Except.ok.inj h]
  · cases h

lemma IteratorCache.get_error {iterator : ℤ} {e : Thrown} (h : c.get iterator = .error e) :
    e.code = .invalidTableIterator ∨ e.code = .tableOperationNotPermitted := by
  simp only [get, eosAssert, Bind.bind, Except.bind] at h
  split_ifs at h <;> simp only at h
  · split at h
    · cases h
    · obtain rfl := Except.error.inj h
      exact .inr rfl
  all_goals
    obtain rfl := Except.error.inj h
    simp

lemma IteratorCache.cacheTable_objects (c : IteratorCache) (id : ℕ) : (c.cacheTable id).2.objects = c.objects := by
  rw [cacheTable]
  split <;> rfl

lemma IteratorCache.mem_cacheTable {id id' : ℕ}
    (h : id' ∈ (c.cacheTable id).2.endIteratorToTable) : id' ∈ c.endIteratorToTable ∨ id' = id := by
  rw [cacheTable] at h
  split at h
  · exact .inl h
  · exact (mem_append.mp h).imp_right mem_singleton.mp

lemma IteratorCache.mem_add {key k : RowKey} (h : some k ∈ (c.add key).2.objects.slots) :
    k = key ∨ some k ∈ c.objects.slots := Slots.mem_add (fun n => narrow n) h

namespace ActionState

variable {s s' t : ActionState} {start genesisDb : Db} {rt : Runtime} {ctx : ApplyContext} {op : Intrinsic} {out : Output}
  {gone : Set ℕ} {i : Index} {v : IndexView} {iterator : ℤ} {key : RowKey}

def Denotes (s : ActionState) (i : Index) (iterator : ℤ) : Prop :=
  (0 ≤ iterator ∧ ∃ key, (s.caches i).objects.holder iterator.toNat = some key ∧ key ∈ s.db.rowKeys i) ∨
    ∃ id, (s.caches i).endTable iterator = some id ∧ s.db.tables.contains id = true

def Accepts (s : ActionState) (ctx : ApplyContext) (op : Intrinsic) : Prop :=
  ∀ e, s.call ctx op = .error e →
    e.code ≠ .tableNotInCache ∧ e.code ≠ .invalidTableIterator ∧ e.code ≠ .tableOperationNotPermitted

structure Extends (s s' : ActionState) : Prop where
  db : s'.db = s.db
  rows : ∀ i k, some k ∈ (s'.caches i).objects.slots → some k ∈ (s.caches i).objects.slots ∨ k ∈ s.db.rowKeys i
  tables : ∀ i id, id ∈ (s'.caches i).endIteratorToTable →
    id ∈ (s.caches i).endIteratorToTable ∨ s.db.tables.contains id = true

lemma Extends.refl (s : ActionState) : Extends s s := ⟨rfl, fun _ _ => .inl, fun _ _ => .inl⟩

lemma Extends.trans (h : Extends s t) (h' : Extends t s') : Extends s s' where
  db := h'.db.trans h.db
  rows := by
    intro i k hk
    rcases h'.rows i k hk with hk | hk
    · exact h.rows i k hk
    · exact .inr (h.db ▸ hk)
  tables := by
    intro i id hid
    rcases h'.tables i id hid with hid | hid
    · exact h.tables i id hid
    · exact .inr (h.db ▸ hid)

lemma extends_setCache {c : IteratorCache}
    (hr : ∀ k, some k ∈ c.objects.slots → some k ∈ (s.caches i).objects.slots ∨ k ∈ s.db.rowKeys i)
    (ht : ∀ id ∈ c.endIteratorToTable, id ∈ (s.caches i).endIteratorToTable ∨ s.db.tables.contains id = true) :
    Extends s (s.setCache i c) := by
  refine ⟨rfl, ?_, ?_⟩
  · intro j k hk
    by_cases hj : j = i
    · subst hj
      simp only [setCache, Function.update_self] at hk
      exact hr k hk
    · simp only [setCache, Function.update_of_ne hj] at hk
      exact .inl hk
  · intro j id hid
    by_cases hj : j = i
    · subst hj
      simp only [setCache, Function.update_self] at hid
      exact ht id hid
    · simp only [setCache, Function.update_of_ne hj] at hid
      exact .inl hid

variable {id : ℕ} {row : RowKey} {db : Db} {k : ℤ}

lemma extends_cacheTable (h : s.db.tables.contains id = true) : Extends s (s.cacheTable i id).2 := by
  refine extends_setCache (c := ((s.caches i).cacheTable id).2) ?_ ?_
  · intro k hk
    rw [IteratorCache.cacheTable_objects] at hk
    exact .inl hk
  · intro id' hid
    rcases IteratorCache.mem_cacheTable hid with hid | rfl
    · exact .inl hid
    · exact .inr h

lemma extends_add (h : key ∈ s.db.rowKeys i) : Extends s (s.add i key).2 := by
  refine extends_setCache (c := ((s.caches i).add key).2) ?_ fun _ => .inl
  intro k hk
  rcases IteratorCache.mem_add hk with rfl | hk
  · exact .inr h
  · exact .inl hk

lemma extends_search {code : AccountName} {scope table : ℕ} {choose : ℕ → Option RowKey} {report : RowKey → Output}
    (hc : ∀ id row, choose id = some row → row ∈ s.db.rowKeys i) :
    Extends s (s.search i code scope table choose report).2 := by
  rw [search]
  split
  · exact .refl s
  · rename_i tableId t ht
    have hm := (s.db.tables.find?_eq_some_iff tableId t).mpr (mem_of_find?_eq_some ht)
    have hs : Extends s (s.cacheTable i tableId).2 :=
      extends_cacheTable ((s.db.tables.contains_iff tableId).mpr ⟨t, hm⟩)
    dsimp only
    split
    · exact hs
    · rename_i row hrow
      split_ifs
      · exact hs
      · exact hs.trans (extends_add (hs.db ▸ hc tableId row hrow))

lemma get_ok (h : s.get i iterator = .ok key) :
    (s.caches i).get iterator = .ok key ∧ key ∈ s.db.rowKeys i := by
  obtain ⟨key', hget, h⟩ := bind_ok h
  split_ifs at h with hm
  cases h
  exact ⟨hget, hm⟩

lemma extends_next (hv : ∀ row ∈ v.rows, row ∈ s.db.rowKeys i) (h : s.next i v iterator = .ok (out, s')) :
    Extends s s' := by
  rw [next] at h
  split_ifs at h
  · cases h
    exact .refl s
  · obtain ⟨obj, -, h⟩ := bind_ok h
    split at h
    · obtain ⟨ei, -, h⟩ := bind_ok h
      cases h
      exact .refl s
    · rename_i row hrow
      cases h
      have hrow := mem_of_mem_tail (mem_of_mem_head? (Option.filter_eq_some_iff.mp hrow).1)
      exact extends_add (hv row ((dropWhile_sublist _).mem hrow))

lemma extends_stepBack {tableId : ℕ} {row : Option RowKey} (h : ∀ k, row = some k → k ∈ s.db.rowKeys i) :
    Extends s (s.stepBack i tableId row).2 := by
  rw [stepBack]
  split
  · exact .refl s
  · rename_i k hk
    exact extends_add (h k (Option.filter_eq_some_iff.mp hk).1)

lemma mem_of_getLast?_takeWhile {p : RowKey → Bool} (h : (v.rows.takeWhile p).getLast? = some row) :
    row ∈ v.rows := (takeWhile_sublist _).mem (mem_of_getLast? h)

lemma extends_previous (hv : ∀ row ∈ v.rows, row ∈ s.db.rowKeys i) (h : s.previous i v iterator = .ok (out, s')) :
    Extends s s' := by
  rw [previous] at h
  split_ifs at h
  · obtain ⟨table, -, h⟩ := bind_ok h
    split at h
    · cases h
    · split_ifs at h
      obtain rfl := congrArg Prod.snd (Except.ok.inj h)
      exact extends_stepBack fun k hk => hv k (mem_of_getLast?_takeWhile hk)
  · obtain ⟨obj, -, h⟩ := bind_ok h
    obtain rfl := congrArg Prod.snd (Except.ok.inj h)
    exact extends_stepBack fun k hk => hv k (mem_of_getLast?_takeWhile hk)

lemma byPrimary_rows (h : row ∈ (db.byPrimary i).rows) : row ∈ db.rowKeys i := h

lemma bySecondary_rows {type : IndexType} (h : row ∈ (db.bySecondary type).rows) :
    row ∈ db.rowKeys (.secondary type) := (mem_insertionSort _).mp h

lemma lowerBound_rows (h : v.lowerBound id k = some row) : row ∈ v.rows :=
  mem_of_find?_eq_some h

lemma upperBound_rows (h : v.upperBound id k = some row) : row ∈ v.rows :=
  mem_of_find?_eq_some h

lemma find_rows (h : v.find id k = some row) : row ∈ v.rows :=
  lowerBound_rows (Option.filter_eq_some_iff.mp h).1

inductive CallStep (rt : Runtime) (s s' : ActionState) : Prop
  | extended (h : Extends s s')
  | stored (op : ChainOp) (db : Db) (i : Index) (key : RowKey) (hop : s.db.applyOp rt op = .ok db)
      (hdb : Stored s.db db i key) (h : Extends { s with db } s')
  | updated (op : ChainOp) (hop : s.db.applyOp rt op = .ok s'.db) (hdb : Keeps none s.db s'.db)
      (hc : s'.caches = s.caches)
  | removed (op : ChainOp) (i : Index) (iterator : ℤ) (key : RowKey) (hop : s.db.applyOp rt op = .ok s'.db)
      (hkey : (s.caches i).objects.holder iterator.toNat = some key)
      (hdb : Keeps (some (i, key)) s.db s'.db)
      (hc : s'.caches = Function.update s.caches i
        { s.caches i with objects := (s.caches i).objects.free iterator.toNat })

lemma cacheStored_step {scope table id tableId : ℕ} {payer : AccountName} {db db1 : Db} (cop : ChainOp)
    (hop : s.db.applyOp rt cop = .ok db)
    (ht : s.db.findOrCreateTable ctx ctx.receiver scope table payer = .ok (tableId, db1))
    (hdb : Stored s.db db i (rowKey tableId id))
    (h : s.cacheStored ctx i scope table payer id db = .ok (out, s')) : CallStep rt s s' := by
  obtain ⟨⟨tableId', db2⟩, ht', h⟩ := bind_ok h
  obtain ⟨rfl, -⟩ := Prod.mk.inj (Except.ok.inj (ht.symm.trans ht'))
  obtain rfl := congrArg Prod.snd (Except.ok.inj h)
  have hcached : Extends { s with db } (cacheTable { s with db } i tableId).2 := extends_cacheTable hdb.table
  exact .stored cop db i (rowKey tableId id) hop hdb (hcached.trans (extends_add (hcached.db ▸ hdb.row)))

lemma remove_ok {c c' : IteratorCache} (h : c.remove iterator = .ok c') :
    c' = { c with objects := c.objects.free iterator.toNat } := by
  iterate 3 obtain ⟨-, h⟩ := eosAssert_ok h
  exact (Except.ok.inj h).symm

lemma Extends.callStep {r : Output × ActionState} (hr : Extends s r.2) (h : (pure r : Result _) = .ok (out, s')) :
    CallStep rt s s' := by
  cases h
  exact .extended hr

lemma call_step (rt : Runtime) (h : s.call ctx op = .ok (out, s')) : CallStep rt s s' := by
  cases op with
  | dbStoreI64 scope table payer id buffer =>
    obtain ⟨db, hdb, h⟩ := bind_ok h
    obtain ⟨tableId, db1, ht, hstored⟩ := (dbStoreI64_ok hdb).stored
    exact cacheStored_step (.dbStore ctx scope table payer id buffer) hdb ht hstored h
  | dbUpdateI64 iterator payer buffer =>
    obtain ⟨key, -, h⟩ := bind_ok h
    obtain ⟨-, -, h⟩ := bind_ok h
    obtain ⟨db, hdb, h⟩ := bind_ok h
    cases h
    exact .updated (.dbUpdate ctx key payer buffer) hdb (dbUpdateI64_ok hdb).keeps rfl
  | dbRemoveI64 iterator =>
    obtain ⟨key, hkey, h⟩ := bind_ok h
    obtain ⟨-, -, h⟩ := bind_ok h
    obtain ⟨db, hdb, h⟩ := bind_ok h
    obtain ⟨c, hc, h⟩ := bind_ok h
    cases h
    obtain rfl := remove_ok hc
    exact .removed (.dbRemove ctx key) .keyValue iterator key hdb (IteratorCache.get_ok (get_ok hkey).1).2
      (dbRemoveI64_ok hdb).keeps rfl
  | dbGetI64 iterator bufferSize =>
    obtain ⟨key, -, h⟩ := bind_ok h
    obtain ⟨obj, -, h⟩ := bind_ok h
    split_ifs at h
    · exact (Extends.refl s).callStep h
    · exact (Extends.refl s).callStep h
  | dbNextI64 iterator => exact .extended (extends_next (fun _ => byPrimary_rows) h)
  | dbPreviousI64 iterator => exact .extended (extends_previous (fun _ => byPrimary_rows) h)
  | dbFindI64 code scope table id =>
    exact Extends.callStep (extends_search fun _ _ hr => byPrimary_rows (find_rows hr)) h
  | dbLowerboundI64 code scope table id =>
    exact Extends.callStep (extends_search fun _ _ hr => byPrimary_rows (lowerBound_rows hr)) h
  | dbUpperboundI64 code scope table id =>
    exact Extends.callStep (extends_search fun _ _ hr => byPrimary_rows (upperBound_rows hr)) h
  | dbEndI64 code scope table => exact Extends.callStep (extends_search fun _ _ hr => by cases hr) h
  | store type scope table payer id value =>
    obtain ⟨db, hdb, h⟩ := bind_ok h
    obtain ⟨tableId, db1, ht, hstored⟩ := (idxStore_ok hdb).stored
    exact cacheStored_step (.idxStore ctx type scope table payer id value) hdb ht hstored h
  | remove type iterator =>
    obtain ⟨key, hkey, h⟩ := bind_ok h
    obtain ⟨obj, -, h⟩ := bind_ok h
    obtain ⟨-, -, h⟩ := bind_ok h
    obtain ⟨-, -, h⟩ := bind_ok h
    obtain ⟨db, hdb, h⟩ := bind_ok h
    obtain ⟨c, hc, h⟩ := bind_ok h
    cases h
    obtain rfl := remove_ok hc
    exact .removed (.idxRemove ctx type key) (.secondary type) iterator key hdb
      (IteratorCache.get_ok (get_ok hkey).1).2 (idxRemove_ok hdb).keeps rfl
  | update type iterator payer secondary =>
    obtain ⟨key, -, h⟩ := bind_ok h
    obtain ⟨-, -, h⟩ := bind_ok h
    obtain ⟨db, hdb, h⟩ := bind_ok h
    cases h
    exact .updated (.idxUpdate ctx type key payer secondary) hdb (idxUpdate_ok hdb).keeps rfl
  | findSecondary type code scope table secondary =>
    exact Extends.callStep (extends_search fun _ _ hr => bySecondary_rows (find_rows hr)) h
  | lowerboundSecondary type code scope table secondary =>
    exact Extends.callStep (extends_search fun _ _ hr => bySecondary_rows (lowerBound_rows hr)) h
  | upperboundSecondary type code scope table secondary =>
    exact Extends.callStep (extends_search fun _ _ hr => bySecondary_rows (upperBound_rows hr)) h
  | endSecondary type code scope table => exact Extends.callStep (extends_search fun _ _ hr => by cases hr) h
  | nextSecondary type iterator => exact .extended (extends_next (fun _ => bySecondary_rows) h)
  | previousSecondary type iterator => exact .extended (extends_previous (fun _ => bySecondary_rows) h)
  | findPrimary type code scope table primary =>
    exact Extends.callStep (extends_search fun _ _ hr => byPrimary_rows (find_rows hr)) h
  | lowerboundPrimary type code scope table primary =>
    exact Extends.callStep (extends_search fun _ _ hr => byPrimary_rows (lowerBound_rows hr)) h
  | upperboundPrimary type code scope table primary =>
    exact Extends.callStep (extends_search fun _ _ hr => byPrimary_rows (upperBound_rows hr)) h
  | nextPrimary type iterator => exact .extended (extends_next (fun _ => byPrimary_rows) h)
  | previousPrimary type iterator => exact .extended (extends_previous (fun _ => byPrimary_rows) h)
  | getRow type iterator =>
    obtain ⟨key, -, h⟩ := bind_ok h
    exact (Extends.refl s).callStep h

inductive ActionRun (start : Db) : Set ℕ → ActionState → Prop
  | start : ActionRun start ∅ { db := start }
  | call {gone : Set ℕ} {s s' : ActionState} {out : Output} (ctx : ApplyContext) (op : Intrinsic)
      (h : ActionRun start gone s) (hs : s.call ctx op = .ok (out, s')) :
      ActionRun start (gone ∪ {id | s.db.tables.contains id = true ∧ s'.db.tables.contains id = false}) s'

structure Sound (gone : Set ℕ) (s : ActionState) : Prop where
  rows : ∀ i k, some k ∈ (s.caches i).objects.slots → k ∈ s.db.rowKeys i
  tables : ∀ i id, id ∈ (s.caches i).endIteratorToTable → id ∈ gone ∨ s.db.tables.contains id = true
  gone : ∀ id ∈ gone, id < s.db.nextTableId ∧ s.db.tables.contains id = false

lemma Sound.extends (h : Sound gone s) (he : Extends s s') : Sound gone s' where
  rows := by
    intro i k hk
    rw [he.db]
    exact (he.rows i k hk).elim (h.rows i k) id
  tables := by
    intro i id hid
    rw [he.db]
    exact (he.tables i id hid).elim (h.tables i id) .inr
  gone := by
    rw [he.db]
    exact h.gone

lemma Sound.changeDb (h : Sound gone s) (hb : s.db.TablesBelow) (hids : FreshIds s.db db)
    (hrows : ∀ i k, some k ∈ (s.caches i).objects.slots → k ∈ db.rowKeys i) :
    Sound (gone ∪ {id | s.db.tables.contains id = true ∧ db.tables.contains id = false}) { s with db } where
  rows := hrows
  tables := by
    intro i id hid
    rcases h.tables i id hid with hg | hin
    · exact .inl (.inl hg)
    · cases hc : db.tables.contains id with
      | true => exact .inr rfl
      | false => exact .inl (.inr ⟨hin, hc⟩)
  gone := by
    rintro id (hg | ⟨hin, hout⟩)
    · obtain ⟨hlt, hout⟩ := h.gone id hg
      refine ⟨hlt.trans_le hids.next, ?_⟩
      by_contra hc
      rcases hids.fresh id (Bool.eq_true_of_not_eq_false hc) with hin | hle
      · rw [hin] at hout
        cases hout
      · exact absurd hlt (not_lt.mpr hle)
    · obtain ⟨t, ht⟩ := (s.db.tables.contains_iff id).mp hin
      exact ⟨(hb id t ht).trans_le hids.next, hout⟩

lemma Sound.step (h : Sound gone s) (hb : s.db.TablesBelow) (hs : CallStep rt s s') :
    Sound (gone ∪ {id | s.db.tables.contains id = true ∧ s'.db.tables.contains id = false}) s' := by
  cases hs with
  | extended he =>
    have hsame : {id | s.db.tables.contains id = true ∧ s'.db.tables.contains id = false} = ∅ := by
      rw [he.db]
      ext id
      simp
    rw [hsame, Set.union_empty]
    exact h.extends he
  | stored op db i key hop hdb he =>
    rw [he.db]
    refine (h.changeDb hb hdb.toFreshIds ?_).extends he
    intro j k hk
    exact hdb.rows j k (h.rows j k hk) (by simp)
  | updated op hop hdb hc =>
    have hsound := h.changeDb hb hdb.toFreshIds fun j k hk => hdb.rows j k (h.rows j k hk) (by simp)
    have he : s' = { s with db := s'.db } := by
      rw [← hc]
    rw [he]
    exact hsound
  | removed op i iterator key hop hkey hdb hc =>
    have hfreed : Extends s { s with caches := s'.caches } := by
      rw [hc]
      refine extends_setCache (c := { s.caches i with objects := (s.caches i).objects.free iterator.toNat }) ?_
        fun _ => .inl
      intro k hk
      exact .inl (Slots.mem_free hkey hk).1
    have hsound := (h.extends hfreed).changeDb hb hdb.toFreshIds ?_
    · exact hsound
    intro j k hk
    have hmem := (h.extends hfreed).rows j k hk
    refine hdb.rows j k hmem ?_
    rintro he
    cases he
    rw [show ({ s with caches := s'.caches } : ActionState).caches i = s'.caches i from rfl, hc,
      Function.update_self] at hk
    exact (Slots.mem_free hkey hk).2 rfl

lemma CallStep.refines (h : CallStep rt s s') : s'.db = s.db ∨ ∃ op, s.db.applyOp rt op = .ok s'.db := by
  cases h with
  | extended he => exact .inl he.db
  | stored op db i key hop hdb he =>
    right
    rw [he.db]
    exact ⟨op, hop⟩
  | updated op hop hdb hc => exact .inr ⟨op, hop⟩
  | removed op i iterator key hop hkey hdb hc => exact .inr ⟨op, hop⟩

lemma ActionRun.refines (hc : ChainRun rt (fun _ _ => True) genesisDb start) (h : ActionRun start gone s) :
    ChainRun rt (fun _ _ => True) genesisDb s.db := by
  induction h with
  | start => exact hc
  | call ctx op h hs ih =>
    rcases (call_step rt hs).refines with he | ⟨op, hop⟩
    · rw [he]
      exact ih
    · exact .step op ih trivial hop

lemma ActionRun.sound (hg : genesisDb.TablesBelow) (hc : ChainRun rt (fun _ _ => True) genesisDb start)
    (h : ActionRun start gone s) : Sound gone s := by
  induction h with
  | start =>
    refine ⟨?_, ?_, fun _ h => h.elim⟩
    · intro i k hk
      cases hk
    · intro i id hid
      cases hid
  | call ctx op h hs ih => exact ih.step ((h.refines hc).tablesBelow hg) (call_step rt hs)

lemma call_of_get_error {e : Thrown} (hh : op.handle = some (i, iterator)) (h0 : 0 ≤ iterator)
    (he : (s.caches i).get iterator = .error e) : s.call ctx op = .error e := by
  have hget : s.get i iterator = .error e := by
    rw [get, he]
    rfl
  have hneg : ¬ iterator < -1 := by omega
  cases op <;> cases hh
  all_goals
    simp only [call, dbUpdateI64, dbRemoveI64, dbGetI64, dbNextI64, dbPreviousI64, remove, update, nextSecondary,
      previousSecondary, nextPrimary, previousPrimary, getRow, next, previous, if_neg hneg, hget]
    rfl

lemma Accepts.holder (ha : s.Accepts ctx op) (hh : op.handle = some (i, iterator)) (h0 : 0 ≤ iterator) :
    ∃ key, (s.caches i).objects.holder iterator.toNat = some key := by
  cases hget : (s.caches i).get iterator with
  | ok key => exact ⟨key, (IteratorCache.get_ok hget).2⟩
  | error e =>
    obtain ⟨-, hinvalid, hnot⟩ := ha e (call_of_get_error hh h0 hget)
    rcases IteratorCache.get_error hget with he | he
    · exact absurd he hinvalid
    · exact absurd he hnot

theorem accepted_handle_denotes_iff {initialKey : PublicKey} {abi : Bytes} {time : ℕ}
    (hg : genesis initialKey abi time = .ok genesisDb) (hc : ChainRun rt (fun _ _ => True) genesisDb start)
    (hr : ActionRun start gone s) (hh : op.handle = some (i, iterator)) (ha : s.Accepts ctx op) :
    s.Denotes i iterator ↔ 0 ≤ iterator ∨ ∃ id, (s.caches i).endTable iterator = some id ∧ id ∉ gone := by
  have hsound := hr.sound (genesis_counted hg).1.below hc
  constructor
  · rintro (⟨h0, -⟩ | ⟨id, hid, hin⟩)
    · exact .inl h0
    · refine .inr ⟨id, hid, fun hgone => ?_⟩
      rw [(hsound.gone id hgone).2] at hin
      cases hin
  · rintro (h0 | ⟨id, hid, hgone⟩)
    · obtain ⟨key, hkey⟩ := ha.holder hh h0
      exact .inl ⟨h0, key, hkey, hsound.rows i key (Slots.mem_of_holder hkey)⟩
    · refine .inr ⟨id, hid, (hsound.tables i id ?_).resolve_left hgone⟩
      rw [IteratorCache.endTable] at hid
      split_ifs at hid
      exact mem_of_getElem? hid

def firstStore : Intrinsic := .dbStoreI64 1 2 Config.systemAccountName 5 [1, 2, 3]

theorem stored_row_denoted : ∃ start s out, genesis 7 [] 0 = .ok start ∧
    ({ db := start } : ActionState).call systemContext firstStore = .ok (out, s) ∧ out.result = 0 ∧
    s.Accepts systemContext (.dbGetI64 0 2) ∧ s.Denotes .keyValue 0 := by
  have hok : (genesis 7 [] 0 >>= fun start =>
      ({ db := start } : ActionState).call systemContext firstStore).map
      (fun r => (r.1.result, (r.2.call systemContext (.dbGetI64 0 2)).map (·.1))) =
      .ok (0, .ok { result := 2, buffer := [1, 2] }) := by decide +kernel
  obtain ⟨⟨out, s⟩, hrun, hview⟩ := exists_of_map_ok hok
  obtain ⟨start, hg, hs⟩ := bind_ok hrun
  obtain ⟨hresult, hget⟩ := Prod.mk.inj hview
  obtain ⟨r, hr, -⟩ := exists_of_map_ok hget
  have ha : s.Accepts systemContext (.dbGetI64 0 2) := by
    intro e he
    rw [hr] at he
    cases he
  have hc : ChainRun delayRuntime (fun _ _ => True) start start := .start
  exact ⟨start, s, out, hg, hs, hresult, ha,
    (accepted_handle_denotes_iff hg hc (.call _ _ .start hs) rfl ha).mpr (.inl le_rfl)⟩

theorem end_iterator_outlives_table : ∃ start stored removed, genesis 7 [] 0 = .ok start ∧
    ({ db := start } : ActionState).call systemContext firstStore = .ok stored ∧
    stored.2.call systemContext (.dbRemoveI64 0) = .ok removed ∧
    removed.2.Accepts systemContext (.dbPreviousI64 (-2)) ∧ ¬ removed.2.Denotes .keyValue (-2) ∧
    removed.2.Accepts systemContext (.dbNextI64 (-7)) ∧ ¬ removed.2.Denotes .keyValue (-7) := by
  have hok : (genesis 7 [] 0 >>= fun start => ({ db := start } : ActionState).call systemContext firstStore >>=
      fun stored => stored.2.call systemContext (.dbRemoveI64 0)).map
      (fun r => ((r.2.call systemContext (.dbPreviousI64 (-2))).map (·.1),
        (r.2.call systemContext (.dbNextI64 (-7))).map (·.1), (r.2.caches .keyValue).endIteratorToTable,
        r.2.db.tables.contains 0)) =
      .ok (.error ⟨.undefinedBehavior, "the table object is gone"⟩, .ok { result := -1 }, [0], false) := by
    decide +kernel
  obtain ⟨⟨out, s⟩, hrun, hview⟩ := exists_of_map_ok hok
  obtain ⟨start, hg, hrun⟩ := bind_ok hrun
  obtain ⟨stored, hstore, hremove⟩ := bind_ok hrun
  obtain ⟨hprevious, hview⟩ := Prod.mk.inj hview
  obtain ⟨hnext, hview⟩ := Prod.mk.inj hview
  obtain ⟨hcached, hgone⟩ := Prod.mk.inj hview
  refine ⟨start, stored, (out, s), hg, hstore, hremove, ?_, ?_, ?_, ?_⟩
  · intro e he
    rw [he] at hprevious
    obtain rfl := Except.error.inj hprevious
    decide
  · rintro (⟨h0, -⟩ | ⟨id, hid, hin⟩)
    · cases h0
    · change (s.caches .keyValue).endIteratorToTable[0]? = some id at hid
      rw [hcached] at hid
      cases hid
      rw [hgone] at hin
      cases hin
  · intro e he
    rw [he] at hnext
    cases hnext
  · rintro (⟨h0, -⟩ | ⟨id, hid, -⟩)
    · cases h0
    · change (s.caches .keyValue).endIteratorToTable[5]? = some id at hid
      rw [hcached] at hid
      cases hid

end ActionState

end XosChain
