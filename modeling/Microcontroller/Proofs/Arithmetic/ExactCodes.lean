import Mathlib.Algebra.Group.Int.Defs
import Mathlib.Algebra.Group.Nat.Defs
import Mathlib.Data.Int.Order.Basic
import Microcontroller.Arithmetic

namespace Microcontroller

namespace Size

def cut (size : Size) (value : Long) : BitVec size.bits := value.setWidth size.bits

theorem bits_pos (size : Size) : 0 < size.bits := by
  cases size <;> decide

theorem le_toNat_mask (size : Size) (n : Nat) : n ≤ size.mask.toNat ↔ n < 2 ^ size.bits := by
  cases size <;> exact Nat.lt_succ_iff.symm

theorem toNat_truncate (size : Size) (value : Long) : (size.truncate value).toNat = (size.cut value).toNat := by
  rw [truncate_toNat, cut, BitVec.toNat_setWidth]
  cases size <;> rfl

theorem truncate_eq (size : Size) (value : Long) : size.truncate value = BitVec.ofInt 32 (size.cut value).toNat := by
  rw [← toNat_truncate, BitVec.ofInt_natCast, BitVec.ofNat_toNat, BitVec.setWidth_eq]

theorem toInt_signExtend (size : Size) (value : Long) : (size.signExtend value).toInt = (size.cut value).toInt := by
  cases size with
  | byte => exact BitVec.toInt_signExtend_of_le (by decide)
  | word => exact BitVec.toInt_signExtend_of_le (by decide)

theorem signExtend_eq (size : Size) (value : Long) :
    size.signExtend value = BitVec.ofInt 32 (size.cut value).toInt := by
  rw [← toInt_signExtend, BitVec.ofInt_toInt]

theorem getLsbD_truncate (size : Size) (value : Long) :
    (size.truncate value).getLsbD (size.bits - 1) = (size.cut value).msb := by
  rw [BitVec.msb_eq_getLsbD_last, BitVec.getLsbD, BitVec.getLsbD, toNat_truncate]

theorem isNegative_eq (size : Size) (value : Long) : size.isNegative value = (size.cut value).msb := by
  have hsign : size.signBit = BitVec.twoPow 32 (size.bits - 1) := by cases size <;> rfl
  have hne : BitVec.twoPow 32 (size.bits - 1) ≠ 0 := by cases size <;> decide
  rw [isNegative, hsign, BitVec.and_twoPow, getLsbD_truncate]
  cases (size.cut value).msb with
  | false => exact bne_self_eq_false _
  | true => exact bne_iff_ne.mpr hne

theorem isZero_eq (size : Size) (value : Long) : size.isZero value = decide ((size.cut value).toNat = 0) := by
  rw [isZero, ← toNat_truncate, Bool.eq_iff_iff, beq_iff_eq, decide_eq_true_iff, ← BitVec.toNat_inj]
  rfl

theorem isZero_eq_cut (size : Size) (value : Long) : size.isZero value = decide (size.cut value = 0) := by
  rw [isZero_eq, decide_eq_decide, ← BitVec.toNat_inj]
  rfl

theorem toNat_cut_ofInt (size : Size) (u : Int) :
    ((size.cut (BitVec.ofInt 32 u)).toNat : Int) = u % 2 ^ size.bits := by
  rw [cut, BitVec.toNat_setWidth, BitVec.toNat_ofInt]
  cases size with
  | byte =>
    simp only [bits]
    omega
  | word =>
    simp only [bits]
    omega

theorem cut_truncate (size : Size) (value : Long) : size.cut (size.truncate value) = size.cut value := by
  apply BitVec.eq_of_toNat_eq
  have hlt := (size.cut value).isLt
  rw [cut, BitVec.toNat_setWidth, toNat_truncate, Nat.mod_eq_of_lt hlt]

theorem one_lt_bits (size : Size) : 1 < size.bits := by
  cases size <;> decide

theorem bits_lt (size : Size) : size.bits < 32 := by
  cases size <;> decide

theorem getLsbD_cut (size : Size) (value : Long) {i : Nat} (hi : i < size.bits) :
    (size.cut value).getLsbD i = value.getLsbD i := by
  rw [cut, BitVec.getLsbD_setWidth, decide_eq_true hi, Bool.true_and]

theorem toNat_cut_of_truncate (size : Size) {value : Long} (h : size.truncate value = value) :
    (size.cut value).toNat = value.toNat := by
  rw [← size.toNat_truncate, h]

theorem getLsbD_of_truncate (size : Size) {value : Long} (h : size.truncate value = value) {i : Nat}
    (hi : size.bits ≤ i) : value.getLsbD i = false := by
  have hlt := (size.cut value).isLt
  rw [size.toNat_cut_of_truncate h] at hlt
  exact Nat.testBit_lt_two_pow (Nat.lt_of_lt_of_le hlt (Nat.pow_le_pow_right (by decide) hi))

theorem getLsbD_signBit (size : Size) (i : Nat) : size.signBit.getLsbD i = decide (i = size.bits - 1) := by
  have hsign : size.signBit = BitVec.twoPow 32 (size.bits - 1) := by cases size <;> rfl
  have hwide := size.bits_lt
  rw [hsign, BitVec.getLsbD_twoPow, decide_eq_true (by omega), Bool.true_and, decide_eq_decide, eq_comm]

theorem getLsbD_lowMask (size : Size) (i : Nat) : (size.mask >>> 1).getLsbD i = decide (i < size.bits - 1) := by
  have hwide := size.bits_lt
  by_cases hi : i < 32
  · have hbits : ∀ i < 32, (size.mask >>> 1).getLsbD i = decide (i < size.bits - 1) := by cases size <;> decide
    exact hbits i hi
  · rw [BitVec.getLsbD_of_ge _ _ (by omega), decide_eq_false (by omega)]

theorem toInt_cut_bounds (size : Size) (value : Long) :
    -2 ^ 15 ≤ (size.cut value).toInt ∧ (size.cut value).toInt < 2 ^ 15 := by
  have hleast := (size.cut value).le_toInt
  have hgreatest := (size.cut value).toInt_lt
  cases size with
  | byte =>
    simp only [bits] at *
    omega
  | word => exact ⟨hleast, hgreatest⟩

end Size

namespace Arithmetic

def exactCodes (w : Nat) (unsigned signed : Int) : ConditionCodes where
  negative := decide (2 ^ (w - 1) ≤ unsigned % 2 ^ w)
  zero := decide (unsigned % 2 ^ w = 0)
  overflow := decide (signed < -2 ^ (w - 1) ∨ 2 ^ (w - 1) ≤ signed)
  carry := decide (unsigned < 0 ∨ 2 ^ w ≤ unsigned)

section Outcome

variable (size : Size) (u s : Int)

theorem carry_ofInt (hleast : -2 ^ size.bits ≤ u) (hgreatest : u < 2 * 2 ^ size.bits) :
    (BitVec.ofInt 32 u).getLsbD size.bits = decide (u < 0 ∨ 2 ^ size.bits ≤ u) := by
  rw [BitVec.getLsbD, Nat.testBit_eq_decide_div_mod_eq, BitVec.toNat_ofInt, decide_eq_decide]
  cases size with
  | byte =>
    simp only [Size.bits] at *
    omega
  | word =>
    simp only [Size.bits] at *
    omega

theorem overflow_ofInt (hleast : -2 ^ 31 ≤ s) (hgreatest : s < 2 ^ 31) :
    ((BitVec.ofInt 32 s).slt (leastSigned size) || (greatestSigned size).slt (BitVec.ofInt 32 s)) =
      decide (s < -2 ^ (size.bits - 1) ∨ 2 ^ (size.bits - 1) ≤ s) := by
  have hs : (BitVec.ofInt 32 s).toInt = s := BitVec.toInt_ofInt_eq_self (by decide) hleast hgreatest
  rw [BitVec.slt, BitVec.slt, hs, ← Bool.decide_or, decide_eq_decide]
  cases size with
  | byte =>
    change s < -128 ∨ 127 < s ↔ s < -128 ∨ 128 ≤ s
    omega
  | word =>
    change s < -32768 ∨ 32767 < s ↔ s < -32768 ∨ 32768 ≤ s
    omega

theorem codes_outcome (hleast : -2 ^ size.bits ≤ u) (hgreatest : u < 2 * 2 ^ size.bits) (hleast' : -2 ^ 31 ≤ s)
    (hgreatest' : s < 2 ^ 31) :
    (outcome (BitVec.ofInt 32 u) (BitVec.ofInt 32 s) size).codes = exactCodes size.bits u s := by
  have hnegative : size.isNegative (BitVec.ofInt 32 u) = decide ((2 : Int) ^ (size.bits - 1) ≤ u % 2 ^ size.bits) := by
    rw [Size.isNegative_eq, BitVec.msb_eq_decide, decide_eq_decide, ← Size.toNat_cut_ofInt]
    norm_cast
  have hzero : size.isZero (BitVec.ofInt 32 u) = decide (u % 2 ^ size.bits = 0) := by
    rw [Size.isZero_eq, decide_eq_decide, ← Size.toNat_cut_ofInt]
    norm_cast
  rw [outcome, hnegative, hzero, overflow_ofInt size s hleast' hgreatest', carry_ofInt size u hleast hgreatest]
  rfl

theorem value_outcome (signed : Long) :
    ((size.cut (outcome (BitVec.ofInt 32 u) signed size).value).toNat : Int) = u % 2 ^ size.bits := by
  rw [outcome, Size.cut_truncate, Size.toNat_cut_ofInt]

end Outcome

def exact (sign x y : Int) (carry : Bool) : Int := x + sign * (y + carry.toNat)

structure Calculates (calculate : Calculation) (sign : Int) : Prop where
  unit : sign = 1 ∨ sign = -1
  outcome_eq (a b : Long) (carry : Bool) (size : Size) :
    calculate a b carry size =
      outcome (BitVec.ofInt 32 (exact sign (size.cut a).toNat (size.cut b).toNat carry))
        (BitVec.ofInt 32 (exact sign (size.cut a).toInt (size.cut b).toInt carry)) size

theorem ofInt_carry (carry : Bool) : (BitVec.ofBool carry).setWidth 32 = BitVec.ofInt 32 carry.toNat := by
  cases carry <;> rfl

theorem calculates_add : Calculates add 1 where
  unit := .inl rfl
  outcome_eq a b carry size := by
    simp only [add, Size.truncate_eq, Size.signExtend_eq, ofInt_carry, ← BitVec.ofInt_add, exact, Int.one_mul,
      Int.add_assoc]

theorem calculates_subtract : Calculates subtract (-1) where
  unit := .inr rfl
  outcome_eq a b carry size := by
    simp only [subtract, Size.truncate_eq, Size.signExtend_eq, ofInt_carry, BitVec.sub_eq_add_neg, ← BitVec.ofInt_neg,
      ← BitVec.ofInt_add, exact, Int.neg_mul, Int.one_mul, Int.neg_add, Int.add_assoc]

namespace Calculates

variable {calculate : Calculation} {sign : Int} (h : Calculates calculate sign) (a b : Long) (carry : Bool) (size : Size)

include h

theorem value_eq :
    ((size.cut (calculate a b carry size).value).toNat : Int) =
      exact sign (size.cut a).toNat (size.cut b).toNat carry % 2 ^ size.bits := by
  rw [h.outcome_eq, value_outcome]

theorem codes_eq :
    (calculate a b carry size).codes =
      exactCodes size.bits (exact sign (size.cut a).toNat (size.cut b).toNat carry)
        (exact sign (size.cut a).toInt (size.cut b).toInt carry) := by
  have ha : ((size.cut a).toNat : Int) < 2 ^ size.bits := by exact_mod_cast (size.cut a).isLt
  have hb : ((size.cut b).toNat : Int) < 2 ^ size.bits := by exact_mod_cast (size.cut b).isLt
  have hsa := size.toInt_cut_bounds a
  have hsb := size.toInt_cut_bounds b
  have hcarry : (carry.toNat : Int) ≤ 1 := by exact_mod_cast carry.toNat_le
  rw [h.outcome_eq]
  have hunit := h.unit
  apply codes_outcome
  all_goals
    unfold exact
    rcases hunit with rfl | rfl
    · omega
    · omega

end Calculates

end Arithmetic

end Microcontroller
