import XosChain.Governance.Packing
import XosChain.Lib.FlatMap

namespace XosChain.Governance

open Lib Raw FlatMap FlatSet Function

abbrev NameSet := FlatSet Name

def charToSymbol (c : Char) : ℕ :=
  if 'a' ≤ c ∧ c ≤ 'z' then c.toNat - 'a'.toNat + 6
  else if '1' ≤ c ∧ c ≤ '5' then c.toNat - '1'.toNat + 1
  else 0

def stringToName (item : List Char) : Name :=
  let str := item.takeWhile (· ≠ '\x00')
  let high := (str.take 12).zipIdx.foldl (fun name c => name ||| (charToSymbol c.1 &&& 0x1f) <<< (64 - 5 * (c.2 + 1))) 0
  Name.ofNat (high ||| (str[12]?).elim 0 (fun c => charToSymbol c &&& 0x0f))

def parseNameString (items : List Char) : NameSet := ((items.splitOn ',').map stringToName).foldl insert .empty

abbrev ListConfiguration := Bytes

namespace ListConfiguration

def getList (l : ListConfiguration) : Result NameSet := Prod.fst <$> unpackSet ⟨l.length, l⟩

def setList (s : NameSet) : Result ListConfiguration := packSet s

def addList (l : ListConfiguration) (a : NameSet) : Result ListConfiguration := do
  let b ← l.getList
  setList (a.union b)

def removeList (l : ListConfiguration) (b : NameSet) : Result ListConfiguration := do
  let a ← l.getList
  setList (a.diff b)

def addStringList (l : ListConfiguration) (list : List Char) : Result ListConfiguration :=
  let a : NameSet := .empty
  let _ : Bool := a = parseNameString list
  l.addList a

def removeStringList (l : ListConfiguration) (list : List Char) : Result ListConfiguration :=
  let a : NameSet := .empty
  let _ : Bool := a = parseNameString list
  l.removeList a

end ListConfiguration

abbrev ListDb := FlatMap ℕ ListConfiguration

def listTypeCount : ℕ := 3

def initializeDatabaseXos : ListDb :=
  (List.range listTypeCount).foldl (fun db type => db.set type []) FlatMap.empty

inductive ListOp where
  | addList (type : ℕ) (list : NameSet)
  | removeList (type : ℕ) (list : NameSet)
  | addStringList (type : ℕ) (list : List Char)
  | removeStringList (type : ℕ) (list : List Char)

namespace ListOp

def type : ListOp → ℕ
  | addList type _ => type
  | removeList type _ => type
  | addStringList type _ => type
  | removeStringList type _ => type

def change (l : ListConfiguration) : ListOp → Result ListConfiguration
  | addList _ list => l.addList list
  | removeList _ list => l.removeList list
  | addStringList _ list => l.addStringList list
  | removeStringList _ list => l.removeStringList list

def denote (s : NameSet) : ListOp → NameSet
  | addList _ list => s.union list
  | removeList _ list => s.diff list
  | addStringList _ list => s.union (parseNameString list)
  | removeStringList _ list => s.diff (parseNameString list)

def stored (s : NameSet) : ListOp → NameSet
  | addList _ list => s.union list
  | removeList _ list => s.diff list
  | addStringList _ _ => s
  | removeStringList _ _ => s

def IsString : ListOp → Prop
  | addList _ _ => False
  | removeList _ _ => False
  | addStringList _ _ => True
  | removeStringList _ _ => True

end ListOp

namespace ListDb

def getList (db : ListDb) (type : ℕ) : Result NameSet :=
  match db.find? type with
  | some l => l.getList
  | none => throw ⟨.outOfRange, "key not found"⟩

def apply (db : ListDb) (op : ListOp) : Result ListDb :=
  match db.find? op.type with
  | some l => do pure (db.set op.type (← op.change l))
  | none => throw ⟨.outOfRange, "key not found"⟩

def Holds (db : ListDb) (lists : ℕ → NameSet) : Prop := ∀ type ∈ db.keys, db.getList type = .ok (lists type)

def denote (lists : ℕ → NameSet) (op : ListOp) : ℕ → NameSet :=
  update lists op.type (op.denote (lists op.type))

def Behaves (db : ListDb) (lists : ℕ → NameSet) : List ListOp → Prop
  | [] => Holds db lists
  | op :: ops => Holds db lists ∧ ∃ db', db.apply op = .ok db' ∧ Behaves db' (denote lists op) ops

def Fits (types : Set ℕ) (lists : ℕ → NameSet) : List ListOp → Prop
  | [] => True
  | op :: ops => op.type ∈ types ∧ (op.denote (lists op.type)).size ≤ maxNumArrayElements ∧
    (op.IsString → op.denote (lists op.type) = lists op.type) ∧ Fits types (denote lists op) ops

variable {db db' : ListDb} {lists : ℕ → NameSet} {op : ListOp} {l l' : ListConfiguration} {s : NameSet} {type : ℕ}

lemma setList_ok : (∃ l, ListConfiguration.setList s = .ok l) ↔ s.size ≤ maxNumArrayElements := by
  constructor
  · rintro ⟨l, h⟩
    exact (eosAssert_ok h).1
  · intro h
    exact ⟨_, eosAssert_bind.mpr ⟨h, rfl⟩⟩

lemma getList_setList (h : ListConfiguration.setList s = .ok l) : l.getList = .ok s := by
  rw [ListConfiguration.getList, unpackSet_packSet h]
  rfl

lemma change_eq (h : l.getList = .ok s) : op.change l = ListConfiguration.setList (op.stored s) := by
  have hadd : ∀ a, l.addList a = ListConfiguration.setList (a.union s) := by
    intro a
    rw [ListConfiguration.addList, h]
    rfl
  have hremove : ∀ a, l.removeList a = ListConfiguration.setList (s.diff a) := by
    intro a
    rw [ListConfiguration.removeList, h]
    rfl
  cases op with
  | addList type list =>
    refine (hadd list).trans (congrArg _ (ext_mem fun z => ?_))
    rw [ListOp.stored, mem_union, mem_union, or_comm]
  | removeList type list => exact hremove list
  | addStringList type list => exact (hadd .empty).trans (congrArg _ empty_union)
  | removeStringList type list => exact (hremove .empty).trans (congrArg _ diff_empty)

lemma stored_eq_denote : op.stored s = op.denote s ↔ (op.IsString → op.denote s = s) := by
  cases op with
  | addList type list => exact ⟨fun _ => nofun, fun _ => rfl⟩
  | removeList type list => exact ⟨fun _ => nofun, fun _ => rfl⟩
  | addStringList type list => exact ⟨fun h _ => h.symm, fun h => (h trivial).symm⟩
  | removeStringList type list => exact ⟨fun h _ => h.symm, fun h => (h trivial).symm⟩

lemma apply_ok (h : db.apply op = .ok db') :
    ∃ l l', db.find? op.type = some l ∧ op.change l = .ok l' ∧ db' = db.set op.type l' := by
  rw [apply] at h
  split at h
  · rename_i l hl
    obtain ⟨l', hl', h⟩ := bind_ok h
    exact ⟨l, l', hl, hl', (Except.ok.inj h).symm⟩
  · cases h

lemma getList_of_find (h : db.find? type = some l) : db.getList type = l.getList := by
  rw [getList, h]

lemma keys_set (h : db.find? op.type = some l) : {t | t ∈ (db.set op.type l').keys} = {t | t ∈ db.keys} := by
  ext t
  change t ∈ (db.set op.type l').keys ↔ t ∈ db.keys
  rw [mem_keys_set, or_iff_right_of_imp]
  rintro rfl
  exact (db.mem_keys_iff op.type).mpr ⟨l, h⟩

lemma Holds.set_iff (h : Holds db lists) (hl' : l'.getList = .ok s) :
    Holds (db.set op.type l') (denote lists op) ↔ s = op.denote (lists op.type) := by
  have hself : getList (db.set op.type l') op.type = .ok s :=
    (getList_of_find (find?_set_self _ _ _)).trans hl'
  constructor
  · intro hh
    have hnew := hh op.type ((mem_keys_set _ _ _ _).mpr (.inl rfl))
    rw [hself, denote, update_self] at hnew
    exact Except.ok.inj hnew
  · rintro rfl type ht
    by_cases he : type = op.type
    · subst he
      rw [hself, denote, update_self]
    · rw [denote, update_of_ne he, getList, find?_set_of_ne _ _ (Ne.symm he)]
      exact h type (((mem_keys_set _ _ _ _).mp ht).resolve_left he)

lemma Behaves.holds {ops : List ListOp} (h : Behaves db lists ops) : Holds db lists := by
  cases ops with
  | nil => exact h
  | cons op ops => exact h.1

theorem lists_behave_iff (db : ListDb) (lists : ℕ → NameSet) (ops : List ListOp) :
    Behaves db lists ops ↔ Holds db lists ∧ Fits {type | type ∈ db.keys} lists ops := by
  induction ops generalizing db lists with
  | nil => simp [Behaves, Fits]
  | cons op ops ih =>
    rw [Behaves, Fits]
    refine and_congr_right fun hh => ?_
    constructor
    · rintro ⟨db', happ, hb⟩
      obtain ⟨l, l', hl, hch, rfl⟩ := apply_ok happ
      have hmem : op.type ∈ db.keys := (db.mem_keys_iff op.type).mpr ⟨l, hl⟩
      have hget := (getList_of_find hl).symm.trans (hh op.type hmem)
      rw [change_eq hget] at hch
      obtain ⟨hholds, hfits⟩ := (ih _ _).mp hb
      have hstored := (hh.set_iff (getList_setList hch)).mp hholds
      rw [keys_set hl] at hfits
      exact ⟨hmem, hstored ▸ setList_ok.mp ⟨l', hch⟩, stored_eq_denote.mp hstored, hfits⟩
    · rintro ⟨hmem, hsize, hstring, hfits⟩
      obtain ⟨l, hl⟩ := (db.mem_keys_iff op.type).mp hmem
      have hget := (getList_of_find hl).symm.trans (hh op.type hmem)
      have hstored := stored_eq_denote.mpr hstring
      obtain ⟨l', hset⟩ := setList_ok.mpr (hstored.symm ▸ hsize)
      have hch := (change_eq hget).trans hset
      refine ⟨db.set op.type l', ?_, (ih _ _).mpr ⟨(hh.set_iff (getList_setList hset)).mpr hstored, ?_⟩⟩
      · rw [apply, hl]
        exact result_bind.mpr ⟨l', hch, rfl⟩
      · rw [keys_set hl]
        exact hfits

theorem string_names_not_added :
    (∀ lists ops, ¬ Behaves initializeDatabaseXos lists ops) ∧
    (initializeDatabaseXos.apply (.addList 0 (empty.insert 5)) =
      .error ⟨.outOfRangeException, "get datastream of length 0 over by 1"⟩) ∧
    ∃ db db', Holds db (fun _ => .empty) ∧ db.apply (.addStringList 0 "alice,bob".toList) = .ok db' ∧
      db'.getList 0 = .ok .empty ∧ (parseNameString "alice,bob".toList).size = 2 := by
  refine ⟨fun lists ops h => ?_, ?_, FlatMap.empty.set 0 [0], FlatMap.empty.set 0 [0], fun type ht => ?_, ?_, ?_, ?_⟩
  · have hholds := h.holds 0 (by decide +kernel)
    have herr : initializeDatabaseXos.getList 0 =
        .error ⟨.outOfRangeException, "get datastream of length 0 over by 1"⟩ := by decide +kernel
    rw [herr] at hholds
    cases hholds
  · decide +kernel
  · obtain rfl : type = 0 := by simpa [FlatMap.keys, FlatMap.set, FlatMap.empty, insertEntry] using ht
    decide +kernel
  · decide +kernel
  · decide +kernel
  · decide +kernel

end ListDb

end XosChain.Governance
