import XosChain.Basic
import XosChain.Lib.FlatSet

namespace XosChain.Raw

open Lib List

abbrev Name := Fin (2 ^ 64)

def Name.ofNat (n : ℕ) : Name := Fin.ofNat (2 ^ 64) n

def maxNumArrayElements : ℕ := 1024 * 1024

structure Datastream where
  length : ℕ
  rest : Bytes

def Datastream.rangeError (ds : Datastream) (method : String) : Thrown :=
  ⟨.outOfRangeException, s!"{method} datastream of length {ds.length} over by {1 - (ds.rest.length : ℤ)}"⟩

def Datastream.get (ds : Datastream) : Result (UInt8 × Datastream) :=
  match ds.rest with
  | [] => throw (ds.rangeError "get")
  | b :: rest => pure (b, { ds with rest })

def Datastream.read (ds : Datastream) (n : ℕ) : Result (Bytes × Datastream) :=
  if n ≤ ds.rest.length then pure (ds.rest.take n, { ds with rest := ds.rest.drop n })
  else throw (ds.rangeError "read")

def packGroups : ℕ → ℕ → Bytes
  | 0, _ => []
  | n + 1, value =>
    let b := UInt8.ofNat value &&& 0x7f
    if value >>> 7 > 0 then (b ||| 0x80) :: packGroups n (value >>> 7) else [b]

def packUnsignedInt (value : ℕ) : Bytes := packGroups 5 value

def unpackGroups : ℕ → ℕ → ℕ → Datastream → Result (ℕ × Datastream)
  | 0, _, v, ds => pure (v % 2 ^ 32, ds)
  | n + 1, shift, v, ds => do
    let (b, ds) ← ds.get
    let v := v ||| ((b &&& 0x7f).toNat <<< shift) % 2 ^ 32
    if b &&& 0x80 ≠ 0 ∧ shift + 7 < 32 then unpackGroups n (shift + 7) v ds else pure (v % 2 ^ 32, ds)

def unpackUnsignedInt (ds : Datastream) : Result (ℕ × Datastream) := unpackGroups 5 0 0 ds

def littleEndian : ℕ → ℕ → Bytes
  | 0, _ => []
  | n + 1, value => UInt8.ofNat value :: littleEndian n (value >>> 8)

def ofLittleEndian : Bytes → ℕ
  | [] => 0
  | b :: l => b.toNat + 256 * ofLittleEndian l

def packName (n : Name) : Bytes := littleEndian 8 n

def unpackName (ds : Datastream) : Result (Name × Datastream) := do
  let (bytes, ds) ← ds.read 8
  pure (Name.ofNat (ofLittleEndian bytes), ds)

def packSet (s : FlatSet Name) : Result Bytes := do
  eosAssert (s.size ≤ maxNumArrayElements) .assertException "value.size() <= MAX_NUM_ARRAY_ELEMENTS"
  pure (packUnsignedInt s.size ++ s.items.flatMap packName)

def unpackNames : ℕ → FlatSet Name → Datastream → Result (FlatSet Name × Datastream)
  | 0, s, ds => pure (s, ds)
  | n + 1, s, ds => do
    let (name, ds) ← unpackName ds
    unpackNames n (s.insert name) ds

def unpackSet (ds : Datastream) : Result (FlatSet Name × Datastream) := do
  let (size, ds) ← unpackUnsignedInt ds
  eosAssert (size ≤ maxNumArrayElements) .assertException "size.value <= MAX_NUM_ARRAY_ELEMENTS"
  unpackNames size .empty ds

section

variable {n value : ℕ}

lemma group_toNat : (UInt8.ofNat value &&& 0x7f).toNat = value % 128 := by
  rw [UInt8.toNat_and, UInt8.toNat_ofNat', show (0x7f : UInt8).toNat = 2 ^ 7 - 1 from rfl,
    Nat.and_two_pow_sub_one_eq_mod]
  omega

lemma uint8_forall {p : UInt8 → Prop} (h : ∀ i : Fin 256, p (UInt8.ofNat i)) (b : UInt8) : p b := by
  have hb := h ⟨b.toNat, b.toNat_lt⟩
  rwa [UInt8.ofNat_toNat] at hb

lemma last_group (b : UInt8) : b &&& 0x7f &&& 0x7f = b &&& 0x7f ∧ b &&& 0x7f &&& 0x80 = 0 := by
  apply uint8_forall (p := fun b => b &&& 0x7f &&& 0x7f = b &&& 0x7f ∧ b &&& 0x7f &&& 0x80 = 0)
  decide +kernel

lemma inner_group (b : UInt8) :
    (b &&& 0x7f ||| 0x80) &&& 0x7f = b &&& 0x7f ∧ (b &&& 0x7f ||| 0x80) &&& 0x80 ≠ 0 := by
  apply uint8_forall
    (p := fun b => (b &&& 0x7f ||| 0x80) &&& 0x7f = b &&& 0x7f ∧ (b &&& 0x7f ||| 0x80) &&& 0x80 ≠ 0)
  decide +kernel

lemma unpackGroups_cons (n shift v len : ℕ) (b : UInt8) (rest : Bytes) :
    unpackGroups (n + 1) shift v ⟨len, b :: rest⟩ =
      if b &&& 0x80 ≠ 0 ∧ shift + 7 < 32 then
        unpackGroups n (shift + 7) (v ||| ((b &&& 0x7f).toNat <<< shift) % 2 ^ 32) ⟨len, rest⟩
      else .ok ((v ||| ((b &&& 0x7f).toNat <<< shift) % 2 ^ 32) % 2 ^ 32, ⟨len, rest⟩) :=
  rfl

lemma or_group {v shift : ℕ} (hv : v < 2 ^ shift) (hfit : value % 128 * 2 ^ shift < 2 ^ 32) :
    v ||| ((UInt8.ofNat value &&& 0x7f).toNat <<< shift) % 2 ^ 32 = v + value % 128 * 2 ^ shift := by
  rw [group_toNat, Nat.shiftLeft_eq, Nat.mod_eq_of_lt hfit, Nat.or_comm, ← Nat.shiftLeft_eq,
    ← Nat.shiftLeft_add_eq_or_of_lt hv, Nat.add_comm]

lemma unpackGroups_packGroups {shift v : ℕ} (len : ℕ) (rest : Bytes) (hn : 0 < n) (hshift : shift + 7 * n = 35)
    (hv : v < 2 ^ shift) (hfit : v + value * 2 ^ shift < 2 ^ 32) :
    unpackGroups n shift v ⟨len, packGroups n value ++ rest⟩ = .ok (v + value * 2 ^ shift, ⟨len, rest⟩) := by
  induction n generalizing shift v value with
  | zero => cases hn
  | succ n ih =>
    have hsplit : value * 2 ^ shift = value % 128 * 2 ^ shift + value / 128 * 2 ^ (shift + 7) := by
      rw [pow_add]
      have := Nat.mod_add_div value 128
      nlinarith
    have hsmall : value % 128 * 2 ^ shift < 2 ^ 32 := by omega
    have hdiv : value >>> 7 = value / 128 := Nat.shiftRight_eq_div_pow value 7
    rw [packGroups, hdiv]
    split_ifs with hmore
    · have hle : 2 ^ (shift + 7) ≤ value / 128 * 2 ^ (shift + 7) := Nat.le_mul_of_pos_left _ hmore
      have hshift' : shift + 7 < 32 := by
        by_contra hge
        have hpow : 2 ^ 32 ≤ 2 ^ (shift + 7) := Nat.pow_le_pow_right (by omega) (not_lt.mp hge)
        omega
      have hv' : v + value % 128 * 2 ^ shift < 2 ^ (shift + 7) := by
        rw [pow_add]
        have := Nat.mod_lt value (show 0 < 128 by omega)
        nlinarith
      obtain ⟨hlow, hbit⟩ := inner_group (UInt8.ofNat value)
      rw [cons_append, unpackGroups_cons, if_pos ⟨hbit, hshift'⟩, hlow, or_group hv hsmall,
        ih (by omega) (by omega) hv' (by omega), hsplit, Nat.add_assoc]
    · have hzero : value / 128 = 0 := by omega
      obtain ⟨hlow, hbit⟩ := last_group (UInt8.ofNat value)
      rw [cons_append, unpackGroups_cons, if_neg (fun h => h.1 hbit), hlow, or_group hv hsmall, hsplit, hzero,
        Nat.zero_mul, Nat.add_zero, Nat.mod_eq_of_lt (by omega)]
      rfl

lemma unpackUnsignedInt_pack (len : ℕ) (rest : Bytes) (h : value < 2 ^ 32) :
    unpackUnsignedInt ⟨len, packUnsignedInt value ++ rest⟩ = .ok (value, ⟨len, rest⟩) := by
  have hround : unpackGroups 5 0 0 ⟨len, packGroups 5 value ++ rest⟩ = .ok (0 + value * 2 ^ 0, ⟨len, rest⟩) :=
    unpackGroups_packGroups len rest (by omega) rfl Nat.one_pos (by omega)
  rwa [pow_zero, Nat.mul_one, Nat.zero_add] at hround

end

section

lemma littleEndian_length (n value : ℕ) : (littleEndian n value).length = n := by
  induction n generalizing value with
  | zero => rfl
  | succ n ih => rw [littleEndian, length_cons, ih]

lemma ofLittleEndian_littleEndian (n value : ℕ) : ofLittleEndian (littleEndian n value) = value % 256 ^ n := by
  induction n generalizing value with
  | zero => rw [littleEndian, ofLittleEndian, pow_zero, Nat.mod_one]
  | succ n ih =>
    rw [littleEndian, ofLittleEndian, ih, UInt8.toNat_ofNat', Nat.shiftRight_eq_div_pow, show 2 ^ 8 = 256 from rfl,
      pow_succ' 256, Nat.mod_mul]

lemma unpackName_pack (len : ℕ) (rest : Bytes) (name : Name) :
    unpackName ⟨len, packName name ++ rest⟩ = .ok (name, ⟨len, rest⟩) := by
  have hlen : (packName name).length = 8 := littleEndian_length 8 name
  have hread : Datastream.read ⟨len, packName name ++ rest⟩ 8 = .ok (packName name, ⟨len, rest⟩) := by
    rw [Datastream.read, if_pos (by simp [hlen]), take_left' hlen, drop_left' hlen]
    rfl
  rw [unpackName, hread]
  change Except.ok (Fin.ofNat (2 ^ 64) (ofLittleEndian (packName name)), _) = _
  rw [packName, ofLittleEndian_littleEndian]
  congr 2
  ext
  simp only [Fin.val_ofNat]
  omega

lemma unpackNames_pack (len : ℕ) (rest : Bytes) (names : List Name) (s : FlatSet Name) :
    unpackNames names.length s ⟨len, names.flatMap packName ++ rest⟩ = .ok (names.foldl FlatSet.insert s, ⟨len, rest⟩) := by
  induction names generalizing s with
  | nil => rfl
  | cons name names ih =>
    rw [length_cons, unpackNames, flatMap_cons, append_assoc, unpackName_pack]
    exact ih (s.insert name)

end

lemma unpackSet_packSet {s : FlatSet Name} {bytes : Bytes} (h : packSet s = .ok bytes) (len : ℕ) :
    unpackSet ⟨len, bytes⟩ = .ok (s, ⟨len, []⟩) := by
  obtain ⟨hsize, h⟩ := eosAssert_ok h
  cases h
  have hlt : s.size < 2 ^ 32 := by
    rw [maxNumArrayElements] at hsize
    omega
  rw [unpackSet, unpackUnsignedInt_pack len _ hlt]
  refine eosAssert_bind.mpr ⟨hsize, ?_⟩
  have hnames := unpackNames_pack len [] s.items .empty
  rw [append_nil, FlatSet.foldl_insert_items] at hnames
  exact hnames

end XosChain.Raw
