import XosChain.Basic

namespace XosChain

def eosioAssert (p : Prop) [Decidable p] (message : String) : Result Unit :=
  eosAssert p .eosioAssertMessageException s!"assertion failure with message: {message}"

lemma eosioAssert_bind {p : Prop} [Decidable p] {message : String} {β : Type} {next : Unit → Result β} {b : β} :
    eosioAssert p message >>= next = .ok b ↔ p ∧ next () = .ok b :=
  eosAssert_bind

lemma eosioAssert_ok {p : Prop} [Decidable p] {message : String} {β : Type} {next : Unit → Result β} {b : β}
    (h : eosioAssert p message >>= next = .ok b) : p ∧ next () = .ok b :=
  eosAssert_bind.mp h

abbrev SymbolName := ℕ

structure SymbolType where
  value : ℕ
  deriving DecidableEq

namespace SymbolType

def name (s : SymbolType) : SymbolName := s.value >>> 8

def restIsZero : ℕ → ℕ → Bool
  | 0, _ => true
  | n + 1, sym => if (sym >>> 8) &&& 0xff ≠ 0 then false else restIsZero n (sym >>> 8)

def isValidFrom : ℕ → ℕ → Bool
  | 0, _ => true
  | n + 1, sym =>
    if ¬ (65 ≤ sym &&& 0xff ∧ sym &&& 0xff ≤ 90) then false
    else if (sym >>> 8) &&& 0xff = 0 then restIsZero (n + 1) (sym >>> 8)
    else isValidFrom n (sym >>> 8)

def isValid (s : SymbolType) : Bool := isValidFrom 7 (s.value >>> 8)

end SymbolType

def sysSymbol : SymbolType := ⟨1398362884⟩

structure Asset where
  amount : Int64
  symbol : SymbolType
  deriving DecidableEq

namespace Asset

def maxAmount : Int64 := ((1 : Int64) <<< (62 : Int64)) - 1

def isAmountWithinRange (a : Asset) : Bool := -maxAmount ≤ a.amount && a.amount ≤ maxAmount

def isValid (a : Asset) : Bool := a.isAmountWithinRange && a.symbol.isValid

def neg (a : Asset) : Asset := { a with amount := -a.amount }

def sub (a b : Asset) : Result Asset := do
  eosioAssert (b.symbol = a.symbol) "attempt to subtract asset with different symbol"
  let amount := a.amount - b.amount
  eosioAssert (-maxAmount ≤ amount) "subtraction underflow"
  eosioAssert (amount ≤ maxAmount) "subtraction overflow"
  pure { a with amount }

def add (a b : Asset) : Result Asset := do
  eosioAssert (b.symbol = a.symbol) "attempt to add asset with different symbol"
  let amount := a.amount + b.amount
  eosioAssert (-maxAmount ≤ amount) "addition underflow"
  eosioAssert (amount ≤ maxAmount) "addition overflow"
  pure { a with amount }

def compared (op : Int64 → Int64 → Bool) (a b : Asset) : Result Bool := do
  eosioAssert (a.symbol = b.symbol) "comparison of assets with different symbols is not allowed"
  pure (op a.amount b.amount)

def eq : Asset → Asset → Result Bool := compared fun a b => a = b
def ne : Asset → Asset → Result Bool := compared fun a b => ¬ a = b
def lt : Asset → Asset → Result Bool := compared fun a b => a < b
def le : Asset → Asset → Result Bool := compared fun a b => a ≤ b
def gt : Asset → Asset → Result Bool := compared fun a b => a > b
def ge : Asset → Asset → Result Bool := compared fun a b => a ≥ b

def value (a : Asset) : ℤ := a.amount.toInt

def Bounded (a : Asset) : Prop := -(2 ^ 62 - 1) ≤ a.value ∧ a.value ≤ 2 ^ 62 - 1

variable {a b c : Asset} {r : Bool}

lemma toInt_maxAmount : maxAmount.toInt = 2 ^ 62 - 1 := by decide +kernel

lemma toInt_neg_maxAmount : (-maxAmount).toInt = -(2 ^ 62 - 1) := by decide +kernel

lemma bounded_iff : a.Bounded ↔ -maxAmount ≤ a.amount ∧ a.amount ≤ maxAmount := by
  rw [Int64.le_iff_toInt_le, Int64.le_iff_toInt_le, toInt_maxAmount, toInt_neg_maxAmount]
  rfl

@[simp] lemma value_zero (s : SymbolType) : (⟨0, s⟩ : Asset).value = 0 := rfl

lemma bounded_zero (s : SymbolType) : (⟨0, s⟩ : Asset).Bounded := by
  rw [Bounded, value_zero]
  omega

lemma isValid_bounded (h : a.isValid = true) : a.Bounded := by
  rw [isValid, Bool.and_eq_true, isAmountWithinRange, Bool.and_eq_true, decide_eq_true_eq, decide_eq_true_eq] at h
  exact bounded_iff.mpr h.1

lemma bmod_of_bounded {n : ℤ} (h : -(2 ^ 63) ≤ n) (h' : n < 2 ^ 63) : n.bmod (2 ^ 64) = n :=
  Int.bmod_eq_of_le (by norm_num; omega) (by norm_num; omega)

lemma add_ok (h : a.add b = .ok c) :
    b.symbol = a.symbol ∧ c.symbol = a.symbol ∧ c.Bounded ∧ c.value = (a.value + b.value).bmod (2 ^ 64) := by
  obtain ⟨hs, h⟩ := eosioAssert_ok h
  obtain ⟨hl, h⟩ := eosioAssert_ok h
  obtain ⟨hu, h⟩ := eosioAssert_ok h
  cases h
  exact ⟨hs, rfl, bounded_iff.mpr ⟨hl, hu⟩, Int64.toInt_add _ _⟩

lemma sub_ok (h : a.sub b = .ok c) :
    b.symbol = a.symbol ∧ c.symbol = a.symbol ∧ c.Bounded ∧ c.value = (a.value - b.value).bmod (2 ^ 64) := by
  obtain ⟨hs, h⟩ := eosioAssert_ok h
  obtain ⟨hl, h⟩ := eosioAssert_ok h
  obtain ⟨hu, h⟩ := eosioAssert_ok h
  cases h
  exact ⟨hs, rfl, bounded_iff.mpr ⟨hl, hu⟩, Int64.toInt_sub _ _⟩

lemma add_value (h : a.add b = .ok c) (ha : a.Bounded) (hb : b.Bounded) : c.value = a.value + b.value := by
  obtain ⟨hal, hau⟩ := ha
  obtain ⟨hbl, hbu⟩ := hb
  rw [(add_ok h).2.2.2]
  exact bmod_of_bounded (by omega) (by omega)

lemma sub_value (h : a.sub b = .ok c) (ha : a.Bounded) (hb : b.Bounded) : c.value = a.value - b.value := by
  obtain ⟨hal, hau⟩ := ha
  obtain ⟨hbl, hbu⟩ := hb
  rw [(sub_ok h).2.2.2]
  exact bmod_of_bounded (by omega) (by omega)

lemma neg_value (h : a.Bounded) : a.neg.value = -a.value := by
  obtain ⟨hl, hu⟩ := h
  refine (Int64.toInt_neg _).trans (bmod_of_bounded ?_ ?_)
  · change _ ≤ -a.value
    omega
  · change -a.value < _
    omega

lemma neg_bounded (h : a.Bounded) : a.neg.Bounded := by
  rw [Bounded, neg_value h]
  obtain ⟨hl, hu⟩ := h
  omega

lemma compared_ok {op : Int64 → Int64 → Bool} (h : compared op a b = .ok r) :
    a.symbol = b.symbol ∧ r = op a.amount b.amount := by
  obtain ⟨hs, h⟩ := eosioAssert_ok h
  exact ⟨hs, (Except.ok.inj h).symm⟩

end Asset

def makeAsset (amount : Int64) (symbol : SymbolType) : Result Asset := do
  eosioAssert ((⟨amount, symbol⟩ : Asset).isAmountWithinRange = true) "magnitude of asset amount must be less than 2^62"
  eosioAssert (symbol.isValid = true) "invalid symbol name"
  pure ⟨amount, symbol⟩

lemma makeAsset_ok {amount : Int64} {symbol : SymbolType} {a : Asset} (h : makeAsset amount symbol = .ok a) :
    a = ⟨amount, symbol⟩ ∧ a.Bounded := by
  obtain ⟨hrange, h⟩ := eosioAssert_ok h
  obtain ⟨-, h⟩ := eosioAssert_ok h
  cases h
  rw [Asset.isAmountWithinRange, Bool.and_eq_true, decide_eq_true_eq, decide_eq_true_eq] at hrange
  exact ⟨rfl, Asset.bounded_iff.mpr hrange⟩

end XosChain
