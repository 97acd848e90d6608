import Microcontroller.Status

namespace Microcontroller

def Flag.position : Flag → Nat
  | .carry => 0
  | .overflow => 1
  | .zero => 2
  | .negative => 3

theorem Flag.mask_eq (flag : Flag) : flag.mask = BitVec.twoPow 16 flag.position := by
  cases flag <;> rfl

theorem Flag.position_lt (flag : Flag) : flag.position < 16 := by
  cases flag <;> decide

theorem Flag.position_injective {f g : Flag} (h : f.position = g.position) : f = g := by
  revert h
  cases f <;> cases g <;> decide

def ConditionCodes.above (codes : ConditionCodes) (zero : Bool) : ConditionCodes :=
  { codes with zero := zero && codes.zero }

namespace Status

theorem get_eq (s : Status) (flag : Flag) : s.get flag = s.bits.getLsbD flag.position := by
  have hne : (0 : Word) ≠ BitVec.twoPow 16 flag.position := by cases flag <;> decide
  rw [get, contains, flag.mask_eq, BitVec.and_twoPow]
  cases s.bits.getLsbD flag.position with
  | false => exact beq_false_of_ne hne
  | true => exact beq_self_eq_true _

theorem getLsbD_set (s : Status) (flag : Flag) (on : Bool) {i : Nat} (hi : i < 16) :
    (s.set flag on).bits.getLsbD i = if i = flag.position then on else s.bits.getLsbD i := by
  have hbit : flag.mask.getLsbD i = decide (i = flag.position) := by
    rw [flag.mask_eq, BitVec.getLsbD_twoPow, decide_eq_true flag.position_lt, Bool.true_and, decide_eq_decide, eq_comm]
  rw [set, assign]
  cases on with
  | false =>
    rw [if_neg Bool.false_ne_true, BitVec.getLsbD_and, BitVec.getLsbD_not, hbit, decide_eq_true hi]
    split <;> simp_all
  | true =>
    rw [if_pos rfl, BitVec.getLsbD_or, hbit]
    split <;> simp_all

theorem get_set (s : Status) (flag other : Flag) (on : Bool) :
    (s.set flag on).get other = if other = flag then on else s.get other := by
  rw [get_eq, getLsbD_set s flag on other.position_lt, get_eq]
  by_cases h : other = flag
  · rw [if_pos h, if_pos (congrArg Flag.position h)]
  · rw [if_neg h, if_neg fun hp => h (Flag.position_injective hp)]

theorem codes_withCodes (s : Status) (codes : ConditionCodes) : (s.withCodes codes).codes = codes := by
  simp [Status.codes, withCodes, get_set]

def withExtendedCodes (s : Status) (codes : ConditionCodes) : Status :=
  if s.get .zero then s.withCodes codes else (s.withCodes codes).set .zero false

theorem codes_withExtendedCodes (s : Status) (codes : ConditionCodes) :
    (s.withExtendedCodes codes).codes = codes.above (s.get .zero) := by
  rw [withExtendedCodes, ConditionCodes.above]
  split
  next h => rw [codes_withCodes, h, Bool.true_and]
  next h => simp [Status.codes, withCodes, get_set, eq_false_of_ne_true h]

theorem and_set (s : Status) (flag : Flag) (on : Bool) {mask : Word} (h : mask.getLsbD flag.position = false) :
    (s.set flag on).bits &&& mask = s.bits &&& mask := by
  apply BitVec.eq_of_getLsbD_eq
  intro i hi
  rw [BitVec.getLsbD_and, BitVec.getLsbD_and, getLsbD_set s flag on hi]
  by_cases hflag : i = flag.position
  · rw [hflag, h, Bool.and_false, Bool.and_false]
  · rw [if_neg hflag]

def masked (s : Status) : Word := s.bits &&& 0xFFF0

theorem masked_set (s : Status) (flag : Flag) (on : Bool) : (s.set flag on).masked = s.masked := by
  apply s.and_set
  cases flag <;> decide

theorem masked_withCodes (s : Status) (codes : ConditionCodes) : (s.withCodes codes).masked = s.masked := by
  simp only [withCodes, masked_set]

theorem masked_withResult (s : Status) (value : Long) (size : Size) : (s.withResult value size).masked = s.masked := by
  simp only [withResult, masked_set]

theorem codes_withResult (s : Status) (value : Long) (size : Size) :
    (s.withResult value size).codes =
      { negative := size.isNegative value
        zero := size.isZero value
        overflow := false
        carry := s.get .carry } := by
  simp [Status.codes, withResult, get_set]

theorem carry_withResult (s : Status) (value : Long) (size : Size) :
    (s.withResult value size).get .carry = s.get .carry := by
  simp [withResult, get_set]

end Status

end Microcontroller
