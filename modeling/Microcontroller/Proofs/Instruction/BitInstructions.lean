import Microcontroller.Proofs.Instruction.References

namespace Microcontroller

open Dialogue Routine
open Twin (withRegister)

inductive BitIndex where
  | register (r : Register)
  | fixed (number : BitVec 4)
  deriving DecidableEq

inductive BitInstruction where
  | set (index : BitIndex)
  | clear (index : BitIndex)
  | invert (number : BitVec 4)
  | test (index : BitIndex)
  deriving DecidableEq

def BitIndex.value (p : Processor) : BitIndex → Nat
  | register r => (p.reg r).toNat % 16
  | fixed number => number.toNat

theorem BitIndex.value_lt (p : Processor) (index : BitIndex) : index.value p < 16 := by
  cases index with
  | register r => exact Nat.mod_lt _ (by decide)
  | fixed number => exact number.isLt

namespace BitChange

def bit (change : BitChange) (old : Bool) : Bool :=
  match change with
  | set => true
  | clear => false
  | invert => !old
  | test => old

def changed (change : BitChange) (byte : Byte) (number : Nat) : Byte :=
  (change.apply (byte.setWidth 32) (BitVec.twoPow 32 number)).setWidth 8

theorem getLsbD_apply (change : BitChange) (value : Long) (number : Nat) {i : Nat} (hi : i < 32) :
    (change.apply value (BitVec.twoPow 32 number)).getLsbD i =
      if i = number then change.bit (value.getLsbD i) else value.getLsbD i := by
  by_cases h : i = number
  · subst h
    cases change <;> simp [apply, bit, hi]
  · cases change <;> simp [apply, hi, h]

theorem getLsbD_changed (change : BitChange) (byte : Byte) (number : Nat) {i : Nat} (hi : i < 8) :
    (change.changed byte number).getLsbD i =
      if i = number then change.bit (byte.getLsbD i) else byte.getLsbD i := by
  have hwide : i < 32 := by omega
  rw [changed, BitVec.getLsbD_setWidth, decide_eq_true hi, Bool.true_and, getLsbD_apply change _ number hwide,
    BitVec.getLsbD_setWidth, decide_eq_true hwide, Bool.true_and]

theorem and_twoPow_eq_zero (value : Long) {number : Nat} (h : number < 32) :
    (value &&& BitVec.twoPow 32 number == 0) = !value.getLsbD number := by
  have hnonzero : BitVec.twoPow 32 number ≠ 0 := by
    intro hzero
    have hbit := congrArg (fun mask => mask.getLsbD number) hzero
    simp [h] at hbit
  rw [BitVec.and_twoPow]
  cases value.getLsbD number with
  | false => rfl
  | true => exact beq_false_of_ne hnonzero

theorem and_twoPow_byte (byte : Byte) {number : Nat} (h : number < 16) :
    (byte.setWidth 32 &&& BitVec.twoPow 32 number == 0) = !byte.getLsbD number := by
  have hwide : number < 32 := by omega
  rw [and_twoPow_eq_zero _ hwide, BitVec.getLsbD_setWidth, decide_eq_true hwide, Bool.true_and]

end BitChange

namespace BitInstruction

def change : BitInstruction → BitChange
  | set _ => .set
  | clear _ => .clear
  | invert _ => .invert
  | test _ => .test

def index : BitInstruction → BitIndex
  | set index | clear index | test index => index
  | invert number => .fixed number

def code : BitInstruction → Byte
  | set (.register r) => withRegister 0x48 r
  | set (.fixed number) => 0xC#4 ++ number
  | clear (.register r) => withRegister 0x58 r
  | clear (.fixed number) => 0xD#4 ++ number
  | invert number => 0xE#4 ++ number
  | test (.register r) => withRegister 0x78 r
  | test (.fixed number) => 0xF#4 ++ number

theorem code_ne_zero (instruction : BitInstruction) : instruction.code ≠ 0 := by
  rcases instruction with (r | number) | (r | number) | number | (r | number) <;>
    (simp only [code]; decide +revert)

def routine (instruction : BitInstruction) (operand : Operand) : Routine Unit := do
  let p ← get
  operand.changeBit instruction.change (instruction.index.value p)

theorem bitNumber_eq (p : Processor) (r : Register) : p.bitNumber r = (BitIndex.register r).value p := by
  rw [Processor.bitNumber, BitVec.toNat_and]
  exact Nat.and_two_pow_sub_one_eq_mod (p.reg r).toNat 4

theorem execute_fixed {change : BitChange} {number : BitVec 4} {operand : Operand} {code : Byte}
    (hoperation : Operation.ofSlot ((code >>> 3).setWidth 5).toFin = .numberedBit change)
    (hnumber : bitField (code >>> 3) (registerField code) = number.toNat) (h : operand.isImmediate = false) :
    GeneralForm.execute ⟨operand, code >>> 3, registerField code⟩ =
      liftM (do operand.changeBit change ((BitIndex.fixed number).value (← get)) : Routine Unit) := by
  rw [GeneralForm.execute, GeneralForm.slot, hoperation, Operation.execute, Operand.numberedBit, h,
    if_neg Bool.false_ne_true, hnumber, Attempt.lift_bind]
  rfl

theorem changeBit_register (change : BitChange) (r : Register) (operand : Operand) :
    (do operand.changeBit change ((← get).bitNumber r) : Attempt Unit) =
      liftM (do operand.changeBit change ((BitIndex.register r).value (← get)) : Routine Unit) := by
  simp only [bitNumber_eq, Attempt.lift_bind]
  rfl

theorem execute_eq (instruction : BitInstruction) {operand : Operand} (h : operand.isImmediate = false) :
    GeneralForm.execute ⟨operand, instruction.code >>> 3, registerField instruction.code⟩ =
      liftM (instruction.routine operand) := by
  rcases instruction with (r | number) | (r | number) | number | (r | number)
  · have hfields : withRegister 0x48 r >>> 3 = 0x09 ∧ registerField (withRegister 0x48 r) = r := by decide +revert
    rw [code, hfields.1, hfields.2]
    change operand.setBit r = _
    rw [Operand.setBit, h, if_neg Bool.false_ne_true, changeBit_register]
    rfl
  · exact execute_fixed (by simp only [code]; decide +revert) (by simp only [code]; decide +revert) h
  · have hfields : withRegister 0x58 r >>> 3 = 0x0B ∧ registerField (withRegister 0x58 r) = r := by decide +revert
    rw [code, hfields.1, hfields.2]
    change operand.clearBit r = _
    rw [Operand.clearBit, h, if_neg Bool.false_ne_true, changeBit_register]
    rfl
  · exact execute_fixed (by simp only [code]; decide +revert) (by simp only [code]; decide +revert) h
  · exact execute_fixed (by simp only [code]; decide +revert) (by simp only [code]; decide +revert) h
  · have hfields : withRegister 0x78 r >>> 3 = 0x0F ∧ registerField (withRegister 0x78 r) = r := by decide +revert
    rw [code, hfields.1, hfields.2]
    change operand.testBit 0x0F r = _
    rw [Operand.testBit, h, if_neg Bool.false_ne_true, changeBit_register]
    rfl
  · exact execute_fixed (by simp only [code]; decide +revert) (by simp only [code]; decide +revert) h

theorem step_takes {size : Size} (instruction : BitInstruction) (reference : Reference size) (p : Processor)
    {escaped : Bool} (h : (reference.operand p escaped).isImmediate = false) :
    Takes p.codePage p.pc (reference.encode escaped instruction.code) (Instruction.step.run p)
      (completed ((instruction.routine (reference.operand p escaped)).run
        { reference.stepped p with
          pc := p.pc + BitVec.ofNat 16 (reference.encode escaped instruction.code).length })) :=
  reference.step_takes p instruction.code_ne_zero (instruction.execute_eq h)

theorem run_routine_byte (instruction : BitInstruction) (page : Byte) (offset : Word) (escaped : Bool) (p : Processor) :
    (instruction.routine ⟨.memory page offset, .byte, escaped⟩).run p =
      .read (address page offset) fun byte =>
        let number := instruction.index.value p
        let tested := p.updateStatus (·.set .zero (!byte.getLsbD number))
        if instruction.change = .test then .done ((), tested)
        else .write (address page offset) (instruction.change.changed byte number) (.done ((), tested)) := by
  have hnumber := instruction.index.value_lt p
  simp only [routine, Operand.changeBit, Operand.read, Operand.write, Routine.run_bind, Routine.run_get, run_readByte,
    Routine.run_pure, run_updateStatus, done_bind, read_bind, BitChange.and_twoPow_byte _ hnumber]
  split <;> rfl

end BitInstruction

end Microcontroller
