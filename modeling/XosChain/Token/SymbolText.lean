import XosChain.Basic
import Mathlib.Data.List.DropRight
import Mathlib.Data.Nat.Digits.Lemmas

namespace XosChain

open List

def isSpace (b : UInt8) : Bool := b = 32 || (9 ≤ b && b ≤ 13)

def trim (s : Bytes) : Bytes := (s.dropWhile isSpace).rdropWhile isSpace

def isDigit (b : UInt8) : Bool := 48 ≤ b && b ≤ 57

def decimalValue (digits : Bytes) : ℕ := digits.foldl (fun n b => 10 * n + (b.toNat - 48)) 0

def toInt64 (s : Bytes) : Result ℤ := do
  let digits := if s.head? = some 45 ∨ s.head? = some 43 then s.tail else s
  let n : ℤ := if s.head? = some 45 then -decimalValue digits else decimalValue digits
  eosAssert (digits ≠ [] ∧ digits.all isDigit ∧ -2 ^ 63 ≤ n ∧ n < 2 ^ 63) .parseErrorException "Couldn't parse int64_t"
  pure n

def decimalText (n : ℕ) : Bytes := (Nat.toDigits 10 n).map fun c => UInt8.ofNat c.toNat

def isLetter (c : UInt8) : Bool := 65 ≤ c && c ≤ 90

def stringToSymbolFrom : ℕ → ℕ → Bytes → Result ℕ
  | _, result, [] => pure result
  | i, result, c :: str => do
    eosAssert (isLetter c) .symbolTypeException "invalid character in symbol name"
    -- a shift by the width of the type or more is undefined
    if 8 * (i + 1) < 64 then stringToSymbolFrom (i + 1) (result ||| c.toNat <<< (8 * (i + 1))) str
    else .error ⟨.undefinedBehavior, "shift of a name's eighth letter"⟩

def stringToSymbol (precision : ℕ) (str : Bytes) : Result ℕ := do
  let result ← stringToSymbolFrom 0 0 (str.takeWhile (· ≠ 0))
  pure (result ||| precision)

namespace Symbol

def nameFrom : ℕ → ℕ → Bytes
  | 0, _ => []
  | n + 1, v => if 0 < v then UInt8.ofNat (v &&& 0xFF) :: nameFrom n (v >>> 8) else []

def nameOf (value : UInt64) : Bytes := nameFrom 8 (value.toNat >>> 8)

def decimalsOf (value : UInt64) : ℕ := value.toNat &&& 0xFF

def isValid (value : UInt64) : Bool := decimalsOf value ≤ 18 && (nameOf value).all isLetter

end Symbol

structure Symbol where
  value : UInt64
  valid : Symbol.isValid value = true
  deriving DecidableEq

namespace Symbol

def decimals (s : Symbol) : ℕ := decimalsOf s.value

def name (s : Symbol) : Bytes := nameOf s.value

def ofValue (value : UInt64) : Result Symbol :=
  if h : isValid value = true then .ok ⟨value, h⟩
  else .error ⟨.symbolTypeException,
    "invalid symbol: " ++ String.ofList ((nameOf value).map fun c => Char.ofNat c.toNat)⟩

def precisionPart (text : Bytes) : Bytes := (trim text).takeWhile (· ≠ 44)

def namePart (text : Bytes) : Bytes := ((trim text).dropWhile (· ≠ 44)).tail

def fromString (text : Bytes) : Result Symbol := do
  eosAssert (trim text ≠ []) .symbolTypeException "creating symbol from empty string"
  eosAssert (44 ∈ trim text) .symbolTypeException "missing comma in symbol"
  let n ← toInt64 (precisionPart text)
  -- the precision is narrowed to a `uint8_t` before it is checked
  let p := (n % 256).toNat
  eosAssert (p ≤ 18) .symbolTypeException s!"precision {p} should be <= 18"
  let value ← stringToSymbol p (namePart text)
  ofValue (UInt64.ofNat value)

def toString (s : Symbol) : Bytes := decimalText s.decimals ++ 44 :: s.name

variable {s s' : Symbol} {text : Bytes} {str : Bytes}

lemma nameFrom_eq {n v : ℕ} (h : v < 256 ^ n) : nameFrom n v = (Nat.digits 256 v).map UInt8.ofNat := by
  induction n generalizing v with
  | zero =>
    obtain rfl : v = 0 := by simpa using h
    rfl
  | succ n ih =>
    rw [nameFrom]
    split_ifs with hv
    · rw [Nat.digits_def' (by norm_num) hv, map_cons, Nat.shiftRight_eq_div_pow, ih (by omega)]
      congr 2
      exact Nat.and_two_pow_sub_one_eq_mod v 8
    · obtain rfl : v = 0 := by omega
      rfl

lemma nameOf_eq (value : UInt64) : nameOf value = (Nat.digits 256 (value.toNat / 256)).map UInt8.ofNat := by
  have hv := value.toNat_lt
  rw [nameOf, Nat.shiftRight_eq_div_pow, nameFrom_eq (by omega)]

lemma decimalsOf_eq (value : UInt64) : decimalsOf value = value.toNat % 256 := Nat.and_two_pow_sub_one_eq_mod _ 8

lemma map_toNat_ofNat {l : List ℕ} (h : ∀ d ∈ l, d < 256) : (l.map UInt8.ofNat).map UInt8.toNat = l := by
  rw [map_map]
  exact map_congr_left (fun d hd => by simpa using h d hd) |>.trans (map_id l)

lemma ofDigits_name (s : Symbol) : Nat.ofDigits 256 (s.name.map UInt8.toNat) = s.value.toNat / 256 := by
  rw [name, nameOf_eq, map_toNat_ofNat fun d hd => Nat.digits_lt_base (by norm_num) hd, Nat.ofDigits_digits]

lemma eq_of_parts (hd : s.decimals = s'.decimals) (hn : s.name = s'.name) : s = s' := by
  have hq : s.value.toNat / 256 = s'.value.toNat / 256 := by rw [← ofDigits_name, hn, ofDigits_name]
  rw [decimals, decimals, decimalsOf_eq, decimalsOf_eq] at hd
  have hv : s.value = s'.value := UInt64.toNat_inj.mp (by omega)
  cases s
  cases s'
  exact (mk.injEq ..).mpr hv

lemma name_length (s : Symbol) : s.name.length ≤ 7 := by
  have hv := s.value.toNat_lt
  rw [name, nameOf_eq, length_map, Nat.digits_length_le_iff (by norm_num)]
  omega

lemma decimals_le (s : Symbol) : s.decimals ≤ 18 := by
  have hv := s.valid
  simp only [isValid, Bool.and_eq_true, decide_eq_true_eq] at hv
  exact hv.1

lemma name_letters (s : Symbol) : ∀ c ∈ s.name, isLetter c = true := by
  have hv := s.valid
  simp only [isValid, Bool.and_eq_true, all_eq_true] at hv
  exact hv.2

lemma stringToSymbolFrom_letters (i result : ℕ) (hl : ∀ c ∈ str, isLetter c = true) (hi : i + str.length ≤ 7)
    (hr : result < 2 ^ (8 * (i + 1))) : stringToSymbolFrom i result str =
      .ok (result + 2 ^ (8 * (i + 1)) * Nat.ofDigits 256 (str.map UInt8.toNat)) := by
  induction str generalizing i result with
  | nil => rw [map_nil, Nat.ofDigits_nil, Nat.mul_zero]; rfl
  | cons c str ih =>
    rw [length_cons] at hi
    obtain ⟨hc, hl⟩ := forall_mem_cons.mp hl
    have hor : result ||| c.toNat <<< (8 * (i + 1)) = result + 2 ^ (8 * (i + 1)) * c.toNat := by
      rw [Nat.or_comm, ← Nat.shiftLeft_add_eq_or_of_lt hr, Nat.shiftLeft_eq, Nat.add_comm, Nat.mul_comm]
    have hpow : 2 ^ (8 * (i + 1 + 1)) = 256 * 2 ^ (8 * (i + 1)) := by rw [Nat.mul_succ, pow_add, Nat.mul_comm]; rfl
    have hlt : result + 2 ^ (8 * (i + 1)) * c.toNat < 2 ^ (8 * (i + 1 + 1)) := by
      have hc := Nat.mul_le_mul_left (2 ^ (8 * (i + 1))) (Nat.le_of_lt_succ c.toNat_lt)
      rw [hpow]
      omega
    refine eosAssert_bind.mpr ⟨hc, ?_⟩
    rw [if_pos (by omega), hor, ih _ _ hl (by omega) hlt, hpow, map_cons, Nat.ofDigits_cons]
    exact congrArg Except.ok (by ring)

lemma encoded {p : ℕ} (hp : p ≤ 18) (hl : ∀ c ∈ str, isLetter c = true) (hlen : str.length ≤ 7) :
    ∃ value s, stringToSymbol p str = .ok value ∧ ofValue (UInt64.ofNat value) = .ok s ∧
      s.decimals = p ∧ s.name = str := by
  have hz : ∀ c ∈ str, c ≠ 0 := by
    rintro c hc rfl
    cases hl 0 hc
  have hd : ∀ d ∈ str.map UInt8.toNat, d < 256 ∧ d ≠ 0 := by
    intro d hd
    obtain ⟨c, hc, rfl⟩ := mem_map.mp hd
    exact ⟨c.toNat_lt, fun h => hz c hc (UInt8.toNat_inj.mp h)⟩
  have hval := stringToSymbolFrom_letters 0 0 hl (by omega) (by norm_num)
  generalize hD : Nat.ofDigits 256 (str.map UInt8.toNat) = D at hval
  have hD7 : D < 256 ^ 7 := by
    rw [← hD]
    refine (Nat.ofDigits_lt_base_pow_length (by norm_num) fun d h => (hd d h).1).trans_le ?_
    exact Nat.pow_le_pow_right (by norm_num) (by rwa [length_map])
  have hor : 0 + 2 ^ 8 * D ||| p = 256 * D + p := by
    rw [Nat.zero_add, ← Nat.two_pow_add_eq_or_of_lt (by omega)]
  have hs : (UInt64.ofNat (256 * D + p)).toNat = 256 * D + p :=
    UInt64.toNat_ofNat_of_lt (by norm_num [UInt64.size]; omega)
  have hdec : decimalsOf (UInt64.ofNat (256 * D + p)) = p := by
    rw [decimalsOf_eq, hs]
    omega
  have hname : nameOf (UInt64.ofNat (256 * D + p)) = str := by
    rw [nameOf_eq, hs, show (256 * D + p) / 256 = D by omega, ← hD, Nat.digits_ofDigits 256 (by norm_num) _
      (fun d h => (hd d h).1) (fun h => (hd _ (getLast_mem h)).2), map_map]
    exact (map_congr_left fun c _ => UInt8.ofNat_toNat).trans (map_id str)
  have hvalid : isValid (UInt64.ofNat (256 * D + p)) = true := by
    simp only [isValid, hdec, hname, Bool.and_eq_true, decide_eq_true_eq, all_eq_true]
    exact ⟨hp, hl⟩
  refine ⟨256 * D + p, ⟨_, hvalid⟩, ?_, dif_pos hvalid, hdec, hname⟩
  rw [stringToSymbol, takeWhile_eq_self_iff.mpr fun c hc => decide_eq_true (hz c hc), hval, ← hor]
  rfl

lemma fromString_eq (text : Bytes) {p : ℕ} (hc : 44 ∈ trim text) (hn : toInt64 (precisionPart text) = .ok (p : ℤ))
    (hp : p ≤ 18) (hl : ∀ c ∈ namePart text, isLetter c = true) (hlen : (namePart text).length ≤ 7) :
    ∃ s, fromString text = .ok s ∧ s.decimals = p ∧ s.name = namePart text := by
  obtain ⟨value, s, hv, hs, hd, hname⟩ := encoded hp hl hlen
  have hmod : ((p : ℤ) % 256).toNat = p := by omega
  refine ⟨s, ?_, hd, hname⟩
  refine eosAssert_bind.mpr ⟨ne_nil_of_mem hc, eosAssert_bind.mpr ⟨hc, result_bind.mpr ⟨p, hn, ?_⟩⟩⟩
  refine eosAssert_bind.mpr ⟨hmod.le.trans hp, result_bind.mpr ⟨value, ?_, hs⟩⟩
  rw [hmod, hv]

def Accepted {α : Type} (r : Result α) : Prop := ∀ e, r = .error e → e.code = .undefinedBehavior

lemma Accepted.assert {α : Type} {p : Prop} [Decidable p] {code : Exception} {what : String} {next : Unit → Result α}
    (h : Accepted (eosAssert p code what >>= next)) (hc : code ≠ .undefinedBehavior) : p ∧ Accepted (next ()) := by
  have hp : p := by
    by_contra hp
    exact hc (h _ (eosAssert_bind_error.mpr (.inl ⟨hp, rfl⟩)))
  exact ⟨hp, fun e he => h e (eosAssert_bind_error.mpr (.inr ⟨hp, he⟩))⟩

lemma Accepted.letters {i result : ℕ} (h : Accepted (stringToSymbolFrom i result str)) (hi : i + str.length ≤ 7) :
    ∀ c ∈ str, isLetter c = true := by
  induction str generalizing i result with
  | nil => exact fun c hc => by cases hc
  | cons c str ih =>
    rw [length_cons] at hi
    obtain ⟨hc, h⟩ := h.assert (by decide)
    rw [if_pos (by omega)] at h
    exact forall_mem_cons.mpr ⟨hc, ih h (by omega)⟩

lemma Accepted.parts (h : Accepted (fromString text)) {n : ℤ} (hn : toInt64 (precisionPart text) = .ok n)
    (hz : 0 ∉ namePart text) (hlen : (namePart text).length ≤ 7) :
    44 ∈ trim text ∧ ∀ c ∈ namePart text, isLetter c = true := by
  obtain ⟨-, h⟩ := Accepted.assert h (by decide)
  obtain ⟨hc, h⟩ := h.assert (by decide)
  rw [hn] at h
  obtain ⟨-, h⟩ := Accepted.assert h (by decide)
  have hself : (namePart text).takeWhile (· ≠ 0) = namePart text :=
    takeWhile_eq_self_iff.mpr fun c hc => decide_eq_true fun h0 => hz (h0 ▸ hc)
  have hfrom : Accepted (stringToSymbolFrom 0 0 (namePart text)) := by
    refine fun e he => h e ?_
    rw [result_bind_error, stringToSymbol, hself, he]
    exact .inl rfl
  exact ⟨hc, hfrom.letters (by omega)⟩

lemma trim_eq_self (h : ∀ b ∈ text, isSpace b = false) : trim text = text := by
  have hd : text.dropWhile isSpace = text :=
    dropWhile_eq_self_iff.mpr fun hl => by simp [h _ (getElem_mem hl)]
  rw [trim, hd]
  exact rdropWhile_eq_self_iff.mpr fun hl => by simp [h _ (getLast_mem hl)]

lemma isSpace_of_isLetter {c : UInt8} (h : isLetter c = true) : isSpace c = false := by
  simp [isLetter, isSpace, UInt8.le_iff_toNat_le, ← UInt8.toNat_inj] at *
  omega

lemma decimalText_spec : ∀ p ≤ 18, toInt64 (decimalText p) = .ok (p : ℤ) ∧
    ∀ b ∈ decimalText p, isSpace b = false ∧ b ≠ 44 := by
  decide +kernel

lemma fromString_toString (s : Symbol) : fromString s.toString = .ok s := by
  obtain ⟨hn, hdigits⟩ := decimalText_spec s.decimals s.decimals_le
  have ht : trim s.toString = s.toString := by
    refine trim_eq_self fun b hb => ?_
    rcases mem_append.mp hb with hb | hb
    · exact (hdigits b hb).1
    · rcases mem_cons.mp hb with rfl | hb
      · rfl
      · exact isSpace_of_isLetter (s.name_letters b hb)
  have hpos : ∀ b ∈ decimalText s.decimals, decide (b ≠ 44) = true := fun b hb => decide_eq_true (hdigits b hb).2
  have hp : precisionPart s.toString = decimalText s.decimals := by
    rw [precisionPart, ht, toString, takeWhile_append_of_pos hpos, takeWhile_cons_of_neg (by simp), append_nil]
  have hname : namePart s.toString = s.name := by
    rw [namePart, ht, toString, dropWhile_append_of_pos hpos, dropWhile_cons_of_neg (by simp), tail_cons]
  obtain ⟨s', hs', hd, hn'⟩ := fromString_eq s.toString (by rw [ht]; simp [toString]) (hp ▸ hn)
    s.decimals_le (hname ▸ s.name_letters) (hname ▸ s.name_length)
  rw [hs', eq_of_parts hd (hn'.trans hname)]

def Denotes (text : Bytes) (n : ℤ) : Prop :=
  ∃ s, fromString text = .ok s ∧ (s.decimals : ℤ) = n ∧ s.name = namePart text

lemma denotes_iff {n : ℤ} (h : Accepted (fromString text)) (hn : toInt64 (precisionPart text) = .ok n) :
    Denotes text n ↔ 0 ≤ n ∧ n ≤ 18 ∧ 0 ∉ namePart text ∧ (namePart text).length ≤ 7 := by
  constructor
  · rintro ⟨s, -, rfl, hname⟩
    rw [← hname]
    refine ⟨Int.natCast_nonneg _, Int.ofNat_le.mpr s.decimals_le, fun h0 => ?_, s.name_length⟩
    cases s.name_letters 0 h0
  · rintro ⟨h0, h18, hz, hlen⟩
    lift n to ℕ using h0
    obtain ⟨hc, hl⟩ := h.parts hn hz hlen
    obtain ⟨s, hs, hd, hname⟩ := fromString_eq text hc hn (by omega) hl hlen
    exact ⟨s, hs, congrArg _ hd, hname⟩

theorem symbol_text (text : Bytes) (n : ℤ) :
    (Accepted (fromString text) → toInt64 (precisionPart text) = .ok n →
      (Denotes text n ↔ 0 ≤ n ∧ n ≤ 18 ∧ 0 ∉ namePart text ∧ (namePart text).length ≤ 7)) ∧
    (∀ text' n', Denotes text n → Denotes text' n' → (n ≠ n' ∨ namePart text ≠ namePart text') →
      fromString text ≠ fromString text') ∧
    ∀ s : Symbol, fromString s.toString = .ok s := by
  refine ⟨denotes_iff, ?_, fromString_toString⟩
  rintro text' n' ⟨s, hs, rfl, hname⟩ ⟨s', hs', rfl, hname'⟩ hne he
  rw [hs, hs', Except.ok.injEq] at he
  rw [he, ← hname, ← hname', he] at hne
  exact hne.elim (· rfl) (· rfl)

theorem symbol_text_eos : Denotes [52, 44, 69, 79, 83] 4 := by
  have hs : fromString [52, 44, 69, 79, 83] = .ok ⟨0x534F4504, by decide⟩ := by decide
  exact ((symbol_text _ 4).1 (fun e he => by cases hs.symm.trans he) (by decide)).mpr (by decide)

theorem symbol_text_narrowed : ∃ s, fromString [50, 53, 54, 44, 65, 66, 67] = .ok s ∧
    fromString [48, 44, 65, 66, 67] = .ok s ∧ s.decimals = 0 ∧
    toInt64 (precisionPart [50, 53, 54, 44, 65, 66, 67]) = .ok 256 := by
  exact ⟨⟨0x43424100, by decide⟩, by decide, by decide, by decide, by decide⟩

end Symbol

end XosChain
