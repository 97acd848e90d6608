import Microcontroller.Proofs.Instruction.BitInstructions
import Microcontroller.Proofs.Operand.Update

namespace Microcontroller

open Dialogue

/-- The operation indices that make the change. Those below `0x18` take the bit's number from a register, the others hold
its top bit. -/
def BitChange.indices : BitChange → List Byte
  | set => [0x09, 0x18, 0x19]
  | clear => [0x0B, 0x1A, 0x1B]
  | invert => [0x1C, 0x1D]
  | test => [0x0F, 0x1E, 0x1F]

def Processor.addressedBit (p : Processor) (index : Byte) (sub : Register) : Nat :=
  if index < 0x18 then (p.reg sub).toNat % 16 else sub.val + 8 * (index.toNat % 2)

theorem Processor.addressedBit_lt (p : Processor) (index : Byte) (sub : Register) : p.addressedBit index sub < 16 := by
  have hsub : sub.val < 8 := sub.isLt
  rw [addressedBit]
  split
  next => exact Nat.mod_lt _ (by decide)
  next => omega

theorem bitField_eq (index : Byte) (sub : Register) : bitField index sub = sub.val + 8 * (index.toNat % 2) := by
  rw [bitField, BitVec.toNat_and]
  exact congrArg (fun bit => sub.val + 8 * bit) (Nat.and_one_is_mod index.toNat)

theorem BitChange.ofSlot_of_le {change : BitChange} {index : Byte} (h : index ∈ change.indices) (hle : ¬index < 0x18) :
    Operation.ofSlot (index.setWidth 5).toFin = .numberedBit change := by
  revert index
  cases change <;> decide

theorem BitChange.register_of_lt {change : BitChange} {index : Byte} (h : index ∈ change.indices) (hlt : index < 0x18) :
    change = .set ∧ index = 0x09 ∨ change = .clear ∧ index = 0x0B ∨ change = .test ∧ index = 0x0F := by
  revert index
  cases change <;> decide

namespace Operand

structure BitChanged (operand : Operand) (change : BitChange) (number : Nat) (p : Processor) (m : Memory) (q : Processor)
    (after : Memory) : Prop where
  status : ∀ i < 16, q.status.bits.getLsbD i =
    if i = Flag.zero.position then !(operand.size.cut (operand.value p m)).getLsbD number else p.status.bits.getLsbD i
  bits : ∀ i < operand.size.bits, (operand.size.cut (operand.value q after)).getLsbD i =
    if i = number then change.bit ((operand.size.cut (operand.value p m)).getLsbD i)
    else (operand.size.cut (operand.value p m)).getLsbD i
  alters : operand.Alters p m q after

theorem execute_changeBit {operand : Operand} (h : operand.isImmediate = false) {change : BitChange} {index : Byte}
    (hindex : index ∈ change.indices) (sub : Register) :
    GeneralForm.execute ⟨operand, index, sub⟩ =
      liftM (do operand.changeBit change ((← get).addressedBit index sub) : Routine Unit) := by
  by_cases hregister : index < 0x18
  · have hnumber (p : Processor) : p.addressedBit index sub = (BitIndex.register sub).value p := if_pos hregister
    simp only [hnumber, ← BitInstruction.changeBit_register]
    obtain ⟨rfl, rfl⟩ | ⟨rfl, rfl⟩ | ⟨rfl, rfl⟩ := BitChange.register_of_lt hindex hregister
    · change operand.setBit sub = _
      rw [setBit, h, if_neg Bool.false_ne_true]
    · change operand.clearBit sub = _
      rw [clearBit, h, if_neg Bool.false_ne_true]
    · change operand.testBit 0x0F sub = _
      rw [testBit, h, if_neg Bool.false_ne_true]
  · have hnumber (p : Processor) : p.addressedBit index sub = bitField index sub :=
      (if_neg hregister).trans (bitField_eq index sub).symm
    simp only [hnumber]
    rw [GeneralForm.execute, GeneralForm.slot, BitChange.ofSlot_of_le hindex hregister, Operation.execute, numberedBit, h,
      if_neg Bool.false_ne_true]
    rfl

theorem run_changeBit {operand : Operand} (h : operand.isImmediate = false) (change : BitChange) {number : Nat}
    (hnumber : number < 16) (p : Processor) (m : Memory) :
    let value := operand.value p m
    let state := operand.updated (change.apply value (BitVec.twoPow 32 number))
      (·.set .zero (!value.getLsbD number)) p m
    ((operand.changeBit change number).run p).run m = (((), state.1), state.2) := by
  intro value state
  rw [changeBit, Routine.run_bind, Dialogue.run_bind, run_read_memory]
  simp only [BitChange.and_twoPow_eq_zero _ (show number < 32 by omega), Routine.run_bind, Routine.run_updateStatus,
    done_bind]
  by_cases htest : change = .test
  · subst htest
    -- Nothing is written by a test, which leaves what writing the operand's own value would.
    have hsame := operand.updated_value (·.set .zero (!value.getLsbD number)) p m
    rw [truncate_value h] at hsame
    change _ = (((), (operand.updated value _ p m).1), (operand.updated value _ p m).2)
    rw [hsame]
    rfl
  · rw [if_neg htest, run_write, written_updateStatus]
    rfl

section Direct

variable {operand : Operand} (h : operand.isImmediate = false)

include h

theorem getLsbD_cut_value (p : Processor) (m : Memory) (i : Nat) :
    (operand.size.cut (operand.value p m)).getLsbD i = (operand.value p m).getLsbD i := by
  by_cases hi : i < operand.size.bits
  · exact operand.size.getLsbD_cut _ hi
  · rw [BitVec.getLsbD_of_ge _ _ (by omega), operand.size.getLsbD_of_truncate (truncate_value h p m) (by omega)]

theorem value_eq_of_bits {p q : Processor} {m after : Memory}
    (hbits : ∀ i < operand.size.bits,
      (operand.size.cut (operand.value q after)).getLsbD i = (operand.size.cut (operand.value p m)).getLsbD i) :
    operand.value q after = operand.value p m :=
  value_eq_of_cut h (BitVec.eq_of_getLsbD_eq hbits)

theorem bitChanged_changeBit (change : BitChange) {number : Nat} (hnumber : number < 16) (p : Processor) (m : Memory) :
    ∃ q after, ((operand.changeBit change number).run p).run m = (((), q), after) ∧
      operand.BitChanged change number p m q after := by
  let mask := BitVec.twoPow 32 number
  let f (s : Status) := s.set .zero (!(operand.value p m).getLsbD number)
  refine ⟨_, _, run_changeBit h change hnumber p m, ?_⟩
  constructor
  case status =>
    intro i hi
    rw [getLsbD_cut_value h, status_updated]
    exact Status.getLsbD_set _ _ _ hi
  case bits =>
    intro i hi
    have hwide := operand.size.bits_lt
    rw [value_updated (change.apply (operand.value p m) mask) f p m h, Size.cut_truncate, operand.size.getLsbD_cut _ hi,
      getLsbD_cut_value h, BitChange.getLsbD_apply change _ number (by omega)]
  case alters => exact alters_updated (change.apply (operand.value p m) mask) f p m h

namespace BitChanged

variable {change : BitChange} {number : Nat} {p q q' : Processor} {m after after' : Memory}
  (hchanged : operand.BitChanged change number p m q after)

include hchanged

theorem value_eq_of_le (hbeyond : operand.size.bits ≤ number) : operand.value q after = operand.value p m := by
  apply value_eq_of_bits h
  intro i hi
  rw [hchanged.bits i hi, if_neg (by omega)]

theorem zero_eq : q.status.get .zero = !(operand.value p m).getLsbD number := by
  rw [Status.get_eq, hchanged.status _ Flag.zero.position_lt, if_pos rfl, getLsbD_cut_value h]

theorem invert_again (hinvert : change = .invert) (hagain : operand.BitChanged change number q after q' after') :
    operand.value q' after' = operand.value p m := by
  apply value_eq_of_bits h
  intro i hi
  rw [hagain.bits i hi, hchanged.bits i hi, hinvert]
  split
  next => exact Bool.not_not _
  next => rfl

theorem again (hother : change ≠ .invert) (hagain : operand.BitChanged change number q after q' after') :
    operand.value q' after' = operand.value q after := by
  have hsame (bit : Bool) : change.bit (change.bit bit) = change.bit bit := by
    cases change with
    | invert => exact absurd rfl hother
    | set | clear | test => rfl
  apply value_eq_of_bits h
  intro i hi
  rw [hagain.bits i hi, hchanged.bits i hi]
  split
  next => exact hsame _
  next => rfl

end BitChanged

theorem execute_bitChanged {change : BitChange} {index : Byte} (hindex : index ∈ change.indices) (sub : Register)
    (p : Processor) (m : Memory) :
    ∃ q after, ((GeneralForm.execute ⟨operand, index, sub⟩).run p).run m = ((.ok (), q), after) ∧
      operand.BitChanged change (p.addressedBit index sub) p m q after := by
  obtain ⟨q, after, hrun, hchanged⟩ := bitChanged_changeBit h change (p.addressedBit_lt index sub) p m
  refine ⟨q, after, ?_, hchanged⟩
  rw [execute_changeBit h hindex, Attempt.run_lift, Routine.run_bind, Routine.run_get, done_bind, Dialogue.run_bind, hrun]
  rfl

theorem change_single_bit {change : BitChange} {index : Byte} (hindex : index ∈ change.indices) (sub : Register)
    (p : Processor) (m : Memory) :
    let number := p.addressedBit index sub
    number < 16 ∧ ∃ q after,
      ((GeneralForm.execute ⟨operand, index, sub⟩).run p).run m = ((.ok (), q), after) ∧
        operand.BitChanged change number p m q after ∧
        operand.Receives (operand.value q after) p m { q with status := p.status } after ∧
        (operand.size.bits ≤ number →
          q.status.get .zero = true ∧ { q with status := p.status } = p ∧ after = m) ∧
        ∀ index' ∈ change.indices, ∀ sub', q.addressedBit index' sub' = number → ∃ q' after',
          ((GeneralForm.execute ⟨operand, index', sub'⟩).run q).run after = ((.ok (), q'), after') ∧
            if change = .invert then
              operand.value q' after' = operand.value p m ∧ { q' with status := p.status } = p ∧ after' = m
            else
              operand.value q' after' = operand.value q after ∧ { q' with status := q.status } = q ∧ after' = after := by
  intro number
  refine ⟨p.addressedBit_lt index sub, ?_⟩
  obtain ⟨q, after, hrun, hchanged⟩ := execute_bitChanged h hindex sub p m
  refine ⟨q, after, hrun, hchanged, hchanged.alters.receives h, ?_, ?_⟩
  · intro hbeyond
    refine ⟨?_, hchanged.alters.eq_of_value h (hchanged.value_eq_of_le h hbeyond)⟩
    rw [hchanged.zero_eq h, operand.size.getLsbD_of_truncate (truncate_value h p m) hbeyond]
    rfl
  · intro index' hindex' sub' hnumber
    obtain ⟨q', after', hrun', hagain⟩ := execute_bitChanged h hindex' sub' q after
    rw [hnumber] at hagain
    refine ⟨q', after', hrun', ?_⟩
    split
    next hinvert =>
      have hvalue := hchanged.invert_again h hinvert hagain
      exact ⟨hvalue, (hchanged.alters.trans hagain.alters).eq_of_value h hvalue⟩
    next hother =>
      have hvalue := hchanged.again h hother hagain
      exact ⟨hvalue, hagain.alters.eq_of_value h hvalue⟩

end Direct

theorem change_single_bit_own_number :
    let operand : Operand := ⟨.register 2, .byte, false⟩
    let p := Processor.new.setReg 2 0x4003
    let m := Memory.filled 0
    operand.isImmediate = false ∧ (0x09 : Byte) ∈ BitChange.set.indices ∧ p.addressedBit 0x09 2 = 3 ∧
      ∃ q after, ((GeneralForm.execute ⟨operand, 0x09, 2⟩).run p).run m = ((.ok (), q), after) ∧
        operand.BitChanged .set 3 p m q after ∧ (0x18 : Byte) ∈ BitChange.set.indices ∧ q.addressedBit 0x18 3 = 3 ∧
        ∃ q' after', ((GeneralForm.execute ⟨operand, 0x18, 3⟩).run q).run after = ((.ok (), q'), after') ∧
          { q' with status := q.status } = q ∧ after' = after := by
  intro operand p m
  have hplace : operand.isImmediate = false := rfl
  have hregister : (0x09 : Byte) ∈ BitChange.set.indices := by decide
  have hfixed : (0x18 : Byte) ∈ BitChange.set.indices := by decide
  have hnumber : p.addressedBit 0x09 2 = 3 := by decide
  obtain ⟨-, q, after, hrun, hchanged, -, -, hagain⟩ := change_single_bit hplace hregister 2 p m
  rw [hnumber] at hchanged hagain
  obtain ⟨q', after', hrun', -, hsame⟩ := hagain 0x18 hfixed 3 rfl
  exact ⟨hplace, hregister, hnumber, q, after, hrun, hchanged, hfixed, rfl, q', after', hrun', hsame⟩

end Operand

end Microcontroller
