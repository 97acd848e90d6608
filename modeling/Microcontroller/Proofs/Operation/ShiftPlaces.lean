import Microcontroller.Operation.Shift
import Microcontroller.Proofs.Arithmetic.ExactCodes
import Microcontroller.Proofs.Arithmetic.Rotation

namespace Microcontroller.Shift

def fields : Shift → List Register
  | left => [0, 2]
  | arithmeticRight => [1]
  | logicalRight => [3]
  | rotateLeft => [4]
  | rotateRight => [5]
  | rotateThroughCarry => [6]

theorem ofField?_eq_some {shift : Shift} {sub : Register} (h : sub ∈ shift.fields) : ofField? sub = some shift := by
  revert sub
  cases shift <;> decide

def Leaves (shift : Shift) (places : Nat) {w : Nat} (x : BitVec w) (carry : Bool) (y : BitVec w) (out : Bool) : Prop :=
  match shift with
  | left => y.toNat = x.toNat * 2 ^ places % 2 ^ w ∧ out = (decide (places ≤ w) && x.getLsbD (w - places))
  | arithmeticRight =>
    y.msb = x.msb ∧ y.toNat % 2 ^ (w - 1) = x.toNat % 2 ^ (w - 1) / 2 ^ places ∧
      out = (decide (places < w) && x.getLsbD (places - 1))
  | logicalRight => y.toNat = x.toNat / 2 ^ places ∧ out = x.getLsbD (places - 1)
  | rotateLeft => y = x.rotateLeft places ∧ out = y.getLsbD 0
  | rotateRight => y = x.rotateRight places ∧ out = y.msb
  | rotateThroughCarry => BitVec.cons out y = (BitVec.cons carry x).rotateLeft places

theorem testBit_low {w : Nat} (x : BitVec w) (i : Nat) :
    (x.toNat % 2 ^ (w - 1)).testBit i = (decide (i < w - 1) && x.getLsbD i) := Nat.testBit_mod_two_pow _ _ _

theorem Leaves.succ {shift : Shift} {places w : Nat} {x y z : BitVec w} {carry out last : Bool}
    (h : shift.Leaves places x carry y out) (hlast : shift.Leaves 1 y out z last) :
    shift.Leaves (places + 1) x carry z last := by
  cases shift with
  | left =>
    obtain ⟨hvalue, -⟩ := h
    obtain ⟨hnext, hout⟩ := hlast
    have hy : y = x <<< places := by
      apply BitVec.eq_of_toNat_eq
      rw [hvalue, BitVec.toNat_shiftLeft, Nat.shiftLeft_eq]
    refine ⟨?_, ?_⟩
    · rw [hnext, hvalue, Nat.mod_mul_mod, Nat.mul_assoc, ← Nat.pow_add]
    · rw [hout, hy, BitVec.getLsbD_shiftLeft]
      by_cases hfits : places + 1 ≤ w
      · rw [decide_eq_true (show 1 ≤ w by omega), decide_eq_true (show w - 1 < w by omega),
          decide_eq_false (show ¬w - 1 < places by omega), decide_eq_true hfits, Nat.sub_sub, Nat.add_comm 1]
        rfl
      · rw [decide_eq_false hfits, Bool.false_and]
        by_cases hw : 1 ≤ w
        · rw [decide_eq_true (show w - 1 < places by omega), Bool.not_true, Bool.and_false, Bool.false_and, Bool.and_false]
        · rw [decide_eq_false hw, Bool.false_and]
  | arithmeticRight =>
    obtain ⟨hsign, hvalue, -⟩ := h
    obtain ⟨hkept, hnext, hout⟩ := hlast
    refine ⟨hkept.trans hsign, ?_, ?_⟩
    · rw [hnext, hvalue, Nat.div_div_eq_div_mul, ← Nat.pow_add]
    · have hbit : (decide (0 < w - 1) && y.getLsbD 0) = (decide (places < w - 1) && x.getLsbD places) := by
        rw [← testBit_low, hvalue, Nat.testBit_div_two_pow, testBit_low, Nat.zero_add]
      rw [hout, Nat.add_sub_cancel, decide_eq_decide.mpr (show 1 < w ↔ 0 < w - 1 by omega),
        decide_eq_decide.mpr (show places + 1 < w ↔ places < w - 1 by omega)]
      exact hbit
  | logicalRight =>
    obtain ⟨hvalue, -⟩ := h
    obtain ⟨hnext, hout⟩ := hlast
    refine ⟨?_, ?_⟩
    · rw [hnext, hvalue, Nat.div_div_eq_div_mul, ← Nat.pow_add]
    · rw [hout, BitVec.getLsbD, hvalue, Nat.testBit_div_two_pow, Nat.add_sub_cancel, Nat.sub_self, Nat.zero_add]
      rfl
  | rotateLeft =>
    obtain ⟨rfl, -⟩ := h
    obtain ⟨hnext, hout⟩ := hlast
    exact ⟨hnext.trans (Rotation.rotateLeft_add x places 1).symm, hout⟩
  | rotateRight =>
    obtain ⟨rfl, -⟩ := h
    obtain ⟨hnext, hout⟩ := hlast
    exact ⟨hnext.trans (Rotation.rotateRight_add x places 1).symm, hout⟩
  | rotateThroughCarry =>
    have hnext : BitVec.cons last z = (BitVec.cons out y).rotateLeft 1 := hlast
    have hbefore : BitVec.cons out y = (BitVec.cons carry x).rotateLeft places := h
    rw [hbefore, ← Rotation.rotateLeft_add] at hnext
    exact hnext

section Apply

variable (size : Size) (value : Long)

theorem getLsbD_entered (bit : Bool) {i : Nat} (hi : i < size.bits) :
    (size.cut (value <<< 1 ||| (BitVec.ofBool bit).setWidth 32)).getLsbD i =
      if i = 0 then bit else value.getLsbD (i - 1) := by
  have hwide := size.bits_lt
  rw [size.getLsbD_cut _ hi, BitVec.getLsbD_or, BitVec.getLsbD_shiftLeft, BitVec.getLsbD_setWidth, BitVec.getLsbD_ofBool]
  split
  next h => simp [h]
  next h => simp [h, show i < 32 by omega, show ¬i < 1 by omega]

theorem left_leaves (carry : Bool) :
    left.Leaves 1 (size.cut value) carry (size.cut (value <<< 1)) (value.getLsbD (size.bits - 1)) := by
  have hw := size.one_lt_bits
  refine ⟨?_, ?_⟩
  · rw [Size.cut, BitVec.setWidth_shiftLeft_of_le (Nat.le_of_lt size.bits_lt), BitVec.toNat_shiftLeft, Nat.shiftLeft_eq]
    rfl
  · rw [decide_eq_true (Nat.le_of_lt hw), Bool.true_and, size.getLsbD_cut value (by omega)]

theorem arithmeticRight_leaves (carry : Bool) :
    arithmeticRight.Leaves 1 (size.cut value) carry
      (size.cut ((value &&& size.mask >>> 1) >>> 1 ||| value &&& size.signBit)) (value.getLsbD 0) := by
  have hw := size.one_lt_bits
  have hbit {i : Nat} (hi : i < size.bits) :
      (size.cut ((value &&& size.mask >>> 1) >>> 1 ||| value &&& size.signBit)).getLsbD i =
        (decide (i + 1 < size.bits - 1) && value.getLsbD (i + 1) || decide (i = size.bits - 1) && value.getLsbD i) := by
    rw [size.getLsbD_cut _ hi, BitVec.getLsbD_or, BitVec.getLsbD_ushiftRight, BitVec.getLsbD_and, BitVec.getLsbD_and,
      size.getLsbD_lowMask, size.getLsbD_signBit, Nat.add_comm 1, Bool.and_comm, Bool.and_comm (value.getLsbD i)]
  refine ⟨?_, ?_, ?_⟩
  · rw [BitVec.msb_eq_getLsbD_last, BitVec.msb_eq_getLsbD_last, hbit (by omega), size.getLsbD_cut value (by omega),
      decide_eq_false (by omega), decide_eq_true rfl, Bool.false_and, Bool.false_or, Bool.true_and]
  · apply Nat.eq_of_testBit_eq
    intro i
    rw [testBit_low, Nat.testBit_div_two_pow, testBit_low]
    by_cases hi : i < size.bits - 1
    · rw [hbit (by omega), decide_eq_true hi, decide_eq_false (show ¬i = size.bits - 1 by omega), Bool.true_and,
        Bool.false_and, Bool.or_false]
      by_cases hlast : i + 1 < size.bits - 1
      · rw [size.getLsbD_cut value (by omega)]
      · rw [decide_eq_false hlast, Bool.false_and, Bool.false_and]
    · rw [decide_eq_false hi, decide_eq_false (show ¬i + 1 < size.bits - 1 by omega), Bool.false_and, Bool.false_and]
  · rw [decide_eq_true hw, Bool.true_and, size.getLsbD_cut value (by omega)]

theorem rotateLeft_leaves (carry : Bool) :
    let top := value.getLsbD (size.bits - 1)
    rotateLeft.Leaves 1 (size.cut value) carry (size.cut (value <<< 1 ||| (BitVec.ofBool top).setWidth 32)) top := by
  intro top
  have hw := size.one_lt_bits
  refine ⟨?_, ?_⟩
  · apply Rotation.eq_rotateLeft
    intro i hi
    rw [getLsbD_entered size value top (Nat.mod_lt _ (by omega)), size.getLsbD_cut value hi]
    by_cases hlast : i + 1 < size.bits
    · rw [Nat.mod_eq_of_lt hlast, if_neg (Nat.succ_ne_zero i), Nat.add_sub_cancel]
    · obtain rfl : i = size.bits - 1 := by omega
      rw [Nat.sub_add_cancel (Nat.le_of_lt hw), Nat.mod_self, if_pos rfl]
  · rw [getLsbD_entered size value top (by omega), if_pos rfl]

theorem rotateThroughCarry_leaves (carry : Bool) :
    rotateThroughCarry.Leaves 1 (size.cut value) carry
      (size.cut (value <<< 1 ||| (BitVec.ofBool carry).setWidth 32)) (value.getLsbD (size.bits - 1)) := by
  have hw := size.one_lt_bits
  apply Rotation.eq_rotateLeft
  intro i hi
  rw [BitVec.getLsbD_cons, BitVec.getLsbD_cons]
  by_cases hlast : i = size.bits
  · rw [hlast, Nat.mod_self, if_neg (by omega), if_pos rfl, getLsbD_entered size value carry (by omega), if_pos rfl]
  · rw [Nat.mod_eq_of_lt (by omega), if_neg hlast, size.getLsbD_cut value (by omega)]
    split
    next htop => rw [← htop, Nat.add_sub_cancel]
    next htop =>
      rw [getLsbD_entered size value carry (by omega), if_neg (Nat.succ_ne_zero i), Nat.add_sub_cancel]

variable {value} (h : size.truncate value = value)

include h

theorem logicalRight_leaves (carry : Bool) :
    logicalRight.Leaves 1 (size.cut value) carry (size.cut (value >>> 1)) (value.getLsbD 0) := by
  have hw := size.one_lt_bits
  have hlt := (size.cut value).isLt
  have hvalue := size.toNat_cut_of_truncate h
  refine ⟨?_, ?_⟩
  · rw [hvalue] at hlt ⊢
    rw [Size.cut, BitVec.toNat_setWidth, BitVec.toNat_ushiftRight, Nat.shiftRight_eq_div_pow]
    exact Nat.mod_eq_of_lt (Nat.lt_of_le_of_lt (Nat.div_le_self _ _) hlt)
  · rw [size.getLsbD_cut value (by omega)]

theorem rotateRight_leaves (carry : Bool) :
    let bottom := value.getLsbD 0
    rotateRight.Leaves 1 (size.cut value) carry
      (size.cut (value >>> 1 ||| (BitVec.ofBool bottom).setWidth 32 <<< (size.bits - 1))) bottom := by
  intro bottom
  have hw := size.one_lt_bits
  have hwide := size.bits_lt
  have hbit {i : Nat} (hi : i < size.bits) :
      (size.cut (value >>> 1 ||| (BitVec.ofBool bottom).setWidth 32 <<< (size.bits - 1))).getLsbD i =
        if i = size.bits - 1 then bottom else value.getLsbD (i + 1) := by
    rw [size.getLsbD_cut _ hi, BitVec.getLsbD_or, BitVec.getLsbD_ushiftRight, BitVec.getLsbD_shiftLeft,
      BitVec.getLsbD_setWidth, BitVec.getLsbD_ofBool, Nat.add_comm 1]
    split
    next hlast =>
      have htop : size.bits - 1 + 1 = size.bits := by omega
      simp [hlast, size.getLsbD_of_truncate h, htop, show size.bits - 1 < 32 by omega]
    next hlast => simp [show i < size.bits - 1 by omega]
  refine ⟨?_, ?_⟩
  · apply BitVec.eq_of_getLsbD_eq
    intro i hi
    rw [hbit hi, Rotation.getLsbD_rotateRight _ 1 hi, size.getLsbD_cut value (Nat.mod_lt _ (by omega))]
    split
    next hlast => rw [hlast, Nat.sub_add_cancel (Nat.le_of_lt hw), Nat.mod_self]
    next hlast => rw [Nat.mod_eq_of_lt (by omega)]
  · rw [BitVec.msb_eq_getLsbD_last, hbit (by omega), if_pos rfl]

theorem apply_leaves (shift : Shift) (carry : Bool) :
    shift.Leaves 1 (size.cut value) carry (size.cut (shift.apply size carry value).1)
      (shift.apply size carry value).2 := by
  cases shift with
  | left => exact left_leaves size value carry
  | arithmeticRight => exact arithmeticRight_leaves size value carry
  | logicalRight => exact logicalRight_leaves size h carry
  | rotateLeft => exact rotateLeft_leaves size value carry
  | rotateRight => exact rotateRight_leaves size h carry
  | rotateThroughCarry => exact rotateThroughCarry_leaves size value carry

end Apply

end Microcontroller.Shift
