import Microcontroller.Proofs.Arithmetic.ExactCodes

namespace Microcontroller.Arithmetic

structure Outcome.Reports (outcome : Outcome) (w : Nat) (unsigned signed : Int) (carries : Prop) : Prop where
  value : (outcome.value.toNat : Int) = unsigned % 2 ^ w
  carry : outcome.codes.carry = true ↔ carries
  overflow : outcome.codes.overflow = true ↔ ¬(-2 ^ (w - 1) ≤ signed ∧ signed < 2 ^ (w - 1))
  negative : outcome.codes.negative = outcome.value.getLsbD (w - 1)
  zero : outcome.codes.zero = true ↔ outcome.value = 0

section Outcome

variable (unsigned signed : Long) (size : Size)

theorem negative_outcome :
    (outcome unsigned signed size).codes.negative = (outcome unsigned signed size).value.getLsbD (size.bits - 1) :=
  (size.isNegative_eq unsigned).trans (size.getLsbD_truncate unsigned).symm

theorem zero_outcome :
    (outcome unsigned signed size).codes.zero = true ↔ (outcome unsigned signed size).value = 0 := beq_iff_eq

theorem toNat_value_outcome :
    (outcome unsigned signed size).value.toNat = (size.cut (outcome unsigned signed size).value).toNat := by
  rw [outcome, size.cut_truncate, size.toNat_truncate]

end Outcome

theorem Calculates.reports {calculate : Calculation} {sign : Int} (h : Calculates calculate sign) (a b : Long)
    (carry : Bool) (size : Size) :
    let unsigned := exact sign (size.cut a).toNat (size.cut b).toNat carry
    (calculate a b carry size).Reports size.bits unsigned (exact sign (size.cut a).toInt (size.cut b).toInt carry)
      (unsigned < 0 ∨ 2 ^ size.bits ≤ unsigned) := by
  intro unsigned
  have hvalue := h.value_eq a b carry size
  have hcodes := h.codes_eq a b carry size
  rw [h.outcome_eq, ← toNat_value_outcome, ← h.outcome_eq] at hvalue
  refine ⟨hvalue, ?_, ?_, ?_, ?_⟩
  · rw [hcodes, exactCodes, decide_eq_true_iff]
  · rw [hcodes, exactCodes, decide_eq_true_iff]
    omega
  · rw [h.outcome_eq]
    exact negative_outcome _ _ size
  · rw [h.outcome_eq]
    exact zero_outcome _ _ size

theorem cut_value_add (a b : Long) (size : Size) :
    size.cut (add a b false size).value = size.cut a + size.cut b := by
  have hbits : size.bits ≤ 32 := by cases size <;> decide
  rw [add, outcome, size.cut_truncate]
  change size.cut (_ + _ + 0#32) = _
  rw [BitVec.add_zero, Size.cut, BitVec.setWidth_add _ _ hbits]
  exact congrArg₂ (· + ·) (size.cut_truncate a) (size.cut_truncate b)

section SignedSums

variable {x y z : Long}

theorem saddOverflow_eq_false (hleast : -2 ^ 31 ≤ x.toInt + y.toInt) (hgreatest : x.toInt + y.toInt < 2 ^ 31) :
    x.saddOverflow y = false := by
  rw [BitVec.saddOverflow, Bool.or_eq_false_iff, decide_eq_false_iff_not, decide_eq_false_iff_not]
  omega

theorem ssubOverflow_eq_false (hleast : -2 ^ 31 ≤ x.toInt - y.toInt) (hgreatest : x.toInt - y.toInt < 2 ^ 31) :
    x.ssubOverflow y = false := by
  rw [BitVec.ssubOverflow, Bool.or_eq_false_iff, decide_eq_false_iff_not, decide_eq_false_iff_not]
  omega

theorem toInt_carry_bounds (carry : Bool) :
    let bit : Long := (BitVec.ofBool carry).setWidth 32
    0 ≤ bit.toInt ∧ bit.toInt ≤ 1 := by
  cases carry <;> decide

variable (hx : -2 ^ 15 ≤ x.toInt ∧ x.toInt < 2 ^ 15) (hy : -2 ^ 15 ≤ y.toInt ∧ y.toInt < 2 ^ 15)
  (hz : 0 ≤ z.toInt ∧ z.toInt ≤ 1)

include hx hy hz

theorem sums_fit : x.saddOverflow y = false ∧ (x + y).saddOverflow z = false := by
  have hfirst : x.saddOverflow y = false := saddOverflow_eq_false (by omega) (by omega)
  have hsum : (x + y).toInt = x.toInt + y.toInt := BitVec.toInt_add_of_not_saddOverflow (Bool.eq_false_iff.mp hfirst)
  exact ⟨hfirst, saddOverflow_eq_false (by omega) (by omega)⟩

theorem differences_fit : x.ssubOverflow y = false ∧ (x - y).ssubOverflow z = false := by
  have hfirst : x.ssubOverflow y = false := ssubOverflow_eq_false (by omega) (by omega)
  have hdifference : (x - y).toInt = x.toInt - y.toInt :=
    BitVec.toInt_sub_of_not_ssubOverflow (Bool.eq_false_iff.mp hfirst)
  exact ⟨hfirst, ssubOverflow_eq_false (by omega) (by omega)⟩

end SignedSums

theorem outcomes_exact (a b : Long) (carry : Bool) (size : Size) :
    let w := size.bits
    let ua : Int := (size.cut a).toNat
    let ub : Int := (size.cut b).toNat
    let sa := (size.cut a).toInt
    let sb := (size.cut b).toInt
    let c : Int := carry.toNat
    let x := size.signExtend a
    let y := size.signExtend b
    let bit : Long := (BitVec.ofBool carry).setWidth 32
    (add a b carry size).Reports w (ua + ub + c) (sa + sb + c) (2 ^ w ≤ ua + ub + c) ∧
      (subtract a b carry size).Reports w (ua - ub - c) (sa - sb - c) (ua < ub + c) ∧
      (add a b carry size = outcome (size.truncate a + size.truncate b + bit) (x + y + bit) size ∧
        x.saddOverflow y = false ∧ (x + y).saddOverflow bit = false) ∧
      (subtract a b carry size = outcome (size.truncate a - size.truncate b - bit) (x - y - bit) size ∧
        x.ssubOverflow y = false ∧ (x - y).ssubOverflow bit = false) := by
  have hlt : ((size.cut a).toNat : Int) < 2 ^ size.bits := by exact_mod_cast (size.cut a).isLt
  intro w ua ub sa sb c x y bit
  have hua : 0 ≤ ua := Int.natCast_nonneg _
  have hub : 0 ≤ ub := Int.natCast_nonneg _
  have hc : 0 ≤ c := Int.natCast_nonneg _
  have hx : -2 ^ 15 ≤ x.toInt ∧ x.toInt < 2 ^ 15 := size.toInt_signExtend a ▸ size.toInt_cut_bounds a
  have hy : -2 ^ 15 ≤ y.toInt ∧ y.toInt < 2 ^ 15 := size.toInt_signExtend b ▸ size.toInt_cut_bounds b
  have hbit := toInt_carry_bounds carry
  have hadd := calculates_add.reports a b carry size
  have hsubtract := calculates_subtract.reports a b carry size
  have hsum (m n : Int) : exact 1 m n carry = m + n + c := by
    rw [exact]
    omega
  have hdifference (m n : Int) : exact (-1) m n carry = m - n - c := by
    rw [exact]
    omega
  rw [hsum, hsum] at hadd
  rw [hdifference, hdifference] at hsubtract
  refine ⟨{ hadd with carry := hadd.carry.trans ?_ }, { hsubtract with carry := hsubtract.carry.trans ?_ },
    ⟨rfl, sums_fit hx hy hbit⟩, ⟨rfl, differences_fit hx hy hbit⟩⟩
  · have hsum : ¬ua + ub + c < 0 := by omega
    exact or_iff_right hsum
  · have hdifference : ¬2 ^ size.bits ≤ ua - ub - c := by omega
    exact (or_iff_left hdifference).trans (by omega)

end Microcontroller.Arithmetic
