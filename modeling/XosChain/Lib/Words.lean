import Mathlib.Tactic

namespace XosChain.Lib

section

lemma toNat_toUInt64 {b : Int64} (h : 0 ≤ b.toInt) : (b.toUInt64.toNat : ℤ) = b.toInt := by
  have hcond := BitVec.toInt_eq_toNat_cond b.toBitVec
  rw [Int64.toInt_toBitVec] at hcond
  have hbits : b.toUInt64.toNat = b.toBitVec.toNat := rfl
  rw [hbits]
  split_ifs at hcond <;> omega

lemma toNat_toUInt64_of_neg {b : Int64} (h : b.toInt < 0) : (b.toUInt64.toNat : ℤ) = b.toInt + 2 ^ 64 := by
  have hcond := BitVec.toInt_eq_toNat_cond b.toBitVec
  rw [Int64.toInt_toBitVec] at hcond
  have hbits : b.toUInt64.toNat = b.toBitVec.toNat := rfl
  rw [hbits]
  split_ifs at hcond <;> omega

lemma toInt_toInt64 {n : UInt64} (h : n.toNat < 2 ^ 63) : n.toInt64.toInt = n.toNat := by
  have hcond := BitVec.toInt_eq_toNat_cond n.toInt64.toBitVec
  rw [Int64.toInt_toBitVec] at hcond
  have hbits : n.toInt64.toBitVec.toNat = n.toNat := rfl
  rw [hbits] at hcond
  rw [hcond, if_pos (by omega)]

lemma toInt_of_uint32 (n : UInt32) : n.toUInt64.toInt64.toInt = n.toNat := by
  have hlt : n.toUInt64.toNat < 2 ^ 63 := lt_trans (UInt32.toNat_lt n) (by decide)
  rw [toInt_toInt64 hlt, UInt32.toNat_toUInt64]

end

section

variable {a b : Int64}

lemma bmod_eq_self {n : ℤ} (h : -(2 ^ 63) ≤ n) (h' : n < 2 ^ 63) : n.bmod (2 ^ 64) = n :=
  Int.bmod_eq_of_le (by norm_num; omega) (by norm_num; omega)

lemma toInt_add_eq (h : -(2 ^ 63) ≤ a.toInt + b.toInt) (h' : a.toInt + b.toInt < 2 ^ 63) :
    (a + b).toInt = a.toInt + b.toInt := by
  rw [Int64.toInt_add]
  exact bmod_eq_self h h'

lemma toInt_add_neg (h : 2 ^ 63 ≤ a.toInt + b.toInt) : (a + b).toInt < 0 := by
  have ha := Int64.toInt_lt a
  have hb := Int64.toInt_lt b
  rw [Int64.toInt_add, Int.bmod_def]
  omega

lemma toInt_sub_eq (h : -(2 ^ 63) ≤ a.toInt - b.toInt) (h' : a.toInt - b.toInt < 2 ^ 63) :
    (a - b).toInt = a.toInt - b.toInt := by
  rw [Int64.toInt_sub]
  exact bmod_eq_self h h'

lemma toInt_neg_eq (h : -(2 ^ 63) < a.toInt) : (-a).toInt = -a.toInt := by
  have hlt := Int64.toInt_lt a
  rw [Int64.toInt_neg]
  exact bmod_eq_self (by omega) (by omega)

lemma toInt_mul_eq (h : -(2 ^ 63) ≤ a.toInt * b.toInt) (h' : a.toInt * b.toInt < 2 ^ 63) :
    (a * b).toInt = a.toInt * b.toInt := by
  rw [Int64.toInt_mul]
  exact bmod_eq_self h h'

lemma tdiv_nonpos {m n : ℤ} (hm : m ≤ 0) (hn : 0 ≤ n) : m.tdiv n ≤ 0 := by
  have hneg := Int.tdiv_nonneg (Int.neg_nonneg_of_nonpos hm) hn
  rw [Int.neg_tdiv] at hneg
  omega

lemma toInt_div_eq (h : 0 < b.toInt) : (a / b).toInt = a.toInt.tdiv b.toInt := by
  have hle := Int64.le_toInt a
  have hlt := Int64.toInt_lt a
  have habs := Int.natAbs_tdiv_le_natAbs a.toInt b.toInt
  rw [Int64.toInt_div]
  rcases le_total a.toInt 0 with hneg | hpos
  · have hsign := tdiv_nonpos hneg h.le
    exact bmod_eq_self (by omega) (by omega)
  · have hsign := Int.tdiv_nonneg hpos h.le
    exact bmod_eq_self (by omega) (by omega)

lemma toInt_mul_div_eq {c : Int64} (hnonneg : 0 ≤ a.toInt * b.toInt) (hlt : a.toInt * b.toInt < 2 ^ 63)
    (hc : 0 < c.toInt) : (a * b / c).toInt = a.toInt * b.toInt / c.toInt := by
  rw [toInt_div_eq hc, toInt_mul_eq (by omega) hlt, Int.tdiv_eq_ediv_of_nonneg hnonneg]

lemma toInt_mul_div_lt {c : Int64} (hprod : 2 ^ 63 ≤ a.toInt * b.toInt) (hc : 0 < c.toInt) :
    (a * b / c).toInt < a.toInt * b.toInt / c.toInt := by
  have hbound := Int64.toInt_lt c
  have hlt := Int64.toInt_lt (a * b)
  have hsplit := Int.bmod_eq_self_sub_mul_bdiv (a.toInt * b.toInt) (2 ^ 64)
  rw [← Int64.toInt_mul] at hsplit
  have hfloor : 1 ≤ a.toInt * b.toInt / c.toInt := Int.le_ediv_of_mul_le hc (by omega)
  rw [toInt_div_eq hc]
  rcases le_total (a * b).toInt 0 with hneg | hpos
  · exact lt_of_le_of_lt (tdiv_nonpos hneg hc.le) (lt_of_lt_of_le one_pos hfloor)
  · rw [Int.tdiv_eq_ediv_of_nonneg hpos]
    have hgap : (a * b).toInt + c.toInt ≤ a.toInt * b.toInt := by
      push_cast at hsplit
      omega
    calc (a * b).toInt / c.toInt < (a * b).toInt / c.toInt + 1 := lt_add_one _
      _ = ((a * b).toInt + c.toInt) / c.toInt := by rw [Int.add_ediv_of_dvd_right (dvd_refl _), Int.ediv_self hc.ne']
      _ ≤ a.toInt * b.toInt / c.toInt := Int.ediv_le_ediv hc hgap

end

end XosChain.Lib
