import Microcontroller.Condition
import Microcontroller.Proofs.Arithmetic.ExactCodes

namespace Microcontroller

open Arithmetic

namespace Condition

def Relates {w : Nat} (condition : Condition) (x y : BitVec w) : Prop :=
  match condition with
  | always => True
  | never => False
  | higher => y.toNat < x.toNat
  | lowerOrSame => x.toNat ≤ y.toNat
  | carryClear => y.toNat ≤ x.toNat
  | carrySet => x.toNat < y.toNat
  | notEqual => x ≠ y
  | equal => x = y
  | overflowClear => -2 ^ (w - 1) ≤ x.toInt - y.toInt ∧ x.toInt - y.toInt < 2 ^ (w - 1)
  | overflowSet => x.toInt - y.toInt < -2 ^ (w - 1) ∨ 2 ^ (w - 1) ≤ x.toInt - y.toInt
  | plus => (x - y).msb = false
  | minus => (x - y).msb = true
  | greaterOrEqual => y.toInt ≤ x.toInt
  | less => x.toInt < y.toInt
  | greater => y.toInt < x.toInt
  | lessOrEqual => x.toInt ≤ y.toInt

end Condition

namespace Arithmetic

variable {w : Nat} (x y : BitVec w)

theorem exact_sum (a b : Int) : exact 1 a b false = a + b := by
  rw [exact, Bool.toNat_false]
  omega

theorem exactCodes_sum :
    exactCodes w (exact 1 x.toNat y.toNat false) (exact 1 x.toInt y.toInt false) =
      { negative := (x + y).msb
        zero := decide (x + y = 0)
        overflow := x.saddOverflow y
        carry := x.uaddOverflow y } := by
  have hsum : (((x + y).toNat : Nat) : Int) = (x.toNat + y.toNat) % 2 ^ w := by
    rw [BitVec.toNat_add]
    push_cast
    rfl
  rw [exact_sum, exact_sum, exactCodes, ← hsum, BitVec.msb_eq_decide, BitVec.saddOverflow, BitVec.uaddOverflow,
    ← Bool.decide_or]
  congr 1
  · rw [decide_eq_decide]
    norm_cast
  · rw [decide_eq_decide, ← BitVec.toNat_inj]
    norm_cast
  · rw [decide_eq_decide]
    omega
  · rw [decide_eq_decide]
    norm_cast
    omega

def differenceCodes : ConditionCodes :=
  exactCodes w (exact (-1) x.toNat y.toNat false) (exact (-1) x.toInt y.toInt false)

theorem exact_difference (a b : Int) : exact (-1) a b false = a - b := by
  rw [exact, Bool.toNat_false]
  omega

theorem toNat_sub_eq : ((x - y).toNat : Int) = (x.toNat - y.toNat) % 2 ^ w := by
  have hy : y.toNat ≤ 2 ^ w := Nat.le_of_lt y.isLt
  rw [BitVec.toNat_sub]
  push_cast [hy]
  rw [show (2 : Int) ^ w - y.toNat + x.toNat = x.toNat - y.toNat + 2 ^ w by omega, Int.add_emod_right]

theorem zero_differenceCodes : (differenceCodes x y).zero = decide (x = y) := by
  have hzero : x - y = 0 ↔ x = y := by
    rw [BitVec.sub_eq_iff_eq_add]
    exact Iff.of_eq (congrArg (x = ·) (BitVec.zero_add y))
  rw [differenceCodes, exactCodes, exact_difference, decide_eq_decide, ← toNat_sub_eq, ← hzero, ← BitVec.toNat_inj]
  norm_cast

theorem negative_differenceCodes : (differenceCodes x y).negative = (x - y).msb := by
  rw [differenceCodes, exactCodes, exact_difference, BitVec.msb_eq_decide, decide_eq_decide, ← toNat_sub_eq]
  norm_cast

theorem carry_differenceCodes : (differenceCodes x y).carry = decide (x.toNat < y.toNat) := by
  have hx : (x.toNat : Int) < 2 ^ w := by exact_mod_cast x.isLt
  rw [differenceCodes, exactCodes, exact_difference, decide_eq_decide]
  omega

theorem overflow_differenceCodes :
    (differenceCodes x y).overflow =
      decide (x.toInt - y.toInt < -2 ^ (w - 1) ∨ 2 ^ (w - 1) ≤ x.toInt - y.toInt) := by
  rw [differenceCodes, exactCodes, exact_difference, exact_difference]

theorem toInt_cases (hw : 0 < w) :
    ((x.toNat : Int) < 2 ^ (w - 1) ∧ x.toInt = x.toNat) ∨
      ((2 : Int) ^ (w - 1) ≤ x.toNat ∧ x.toInt = x.toNat - 2 * 2 ^ (w - 1)) := by
  obtain ⟨n, rfl⟩ : ∃ n, w = n + 1 := ⟨w - 1, (Nat.sub_add_cancel hw).symm⟩
  have hpow : (2 : Int) ^ (n + 1) = 2 * 2 ^ n := Int.pow_succ' ..
  rw [BitVec.toInt_eq_toNat_cond, Nat.add_sub_cancel]
  split
  next h =>
    have h' : 2 * (x.toNat : Int) < 2 ^ (n + 1) := by exact_mod_cast h
    exact .inl ⟨by omega, rfl⟩
  next h =>
    have h' : ¬2 * (x.toNat : Int) < 2 ^ (n + 1) := by exact_mod_cast h
    push_cast
    exact .inr ⟨by omega, by omega⟩

theorem less_differenceCodes (hw : 0 < w) :
    ((differenceCodes x y).negative != (differenceCodes x y).overflow) = decide (x.toInt < y.toInt) := by
  have hpow : (2 : Int) ^ w = 2 * 2 ^ (w - 1) := by
    rw [← Int.pow_succ', Nat.sub_add_cancel hw]
  have hx : (x.toNat : Int) < 2 ^ w := by exact_mod_cast x.isLt
  have hy : (y.toNat : Int) < 2 ^ w := by exact_mod_cast y.isLt
  have hnegative : (differenceCodes x y).negative = true ↔
      if x.toNat < y.toNat then (2 : Int) ^ (w - 1) ≤ x.toNat - y.toNat + 2 ^ w
      else (2 : Int) ^ (w - 1) ≤ x.toNat - y.toNat := by
    rw [differenceCodes, exactCodes, exact_difference, decide_eq_true_iff]
    split
    next h => rw [← Int.add_emod_right, Int.emod_eq_of_lt (by omega) (by omega)]
    next h => rw [Int.emod_eq_of_lt (by omega) (by omega)]
  rw [Bool.eq_iff_iff, bne_iff_ne, ne_eq, Bool.eq_iff_iff, hnegative, overflow_differenceCodes, decide_eq_true_iff,
    decide_eq_true_iff]
  -- The top bits of both numbers and the borrow leave linear arithmetic only.
  rcases toInt_cases x hw with ⟨h, hs⟩ | ⟨h, hs⟩
  all_goals rcases toInt_cases y hw with ⟨h', hs'⟩ | ⟨h', hs'⟩
  all_goals
    rw [hs, hs']
    split
    all_goals omega

theorem holds_differenceCodes (hw : 0 < w) (condition : Condition) :
    condition.holds (differenceCodes x y) = true ↔ condition.Relates x y := by
  have hless := less_differenceCodes x y hw
  have hge : ((differenceCodes x y).negative == (differenceCodes x y).overflow) = !decide (x.toInt < y.toInt) := by
    rw [← hless, bne, Bool.not_not]
  cases condition
  all_goals simp only [Condition.holds, Condition.Relates, hless, hge]
  all_goals simp only [negative_differenceCodes, zero_differenceCodes, carry_differenceCodes, overflow_differenceCodes,
    Bool.not_eq_true', Bool.or_eq_true, Bool.or_eq_false_iff, decide_eq_true_iff, decide_eq_false_iff_not,
    Bool.false_eq_true]
  case higher | lowerOrSame =>
    rw [← BitVec.toNat_inj]
    omega
  case greater | lessOrEqual =>
    rw [← BitVec.toInt_inj]
    omega
  all_goals omega

end Arithmetic

end Microcontroller
