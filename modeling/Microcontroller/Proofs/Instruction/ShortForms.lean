import Microcontroller.Instruction.Form

namespace Microcontroller

open Routine

namespace Instruction

theorem store_word (r : Register) (data : Word) : Routine.store r (data.setWidth 32) .word = setReg r data := by
  ext p
  rw [run_store, Processor.store, word_of_long]
  rfl

theorem moveByte_eq (byte : Byte) :
    moveByte byte = fetch >>= fun data =>
      Operand.load ⟨.immediate (data.setWidth 16), .byte, false⟩ (registerField byte) := by
  simp only [moveByte, Operand.load, Operand.read, pure_bind, long_of_byte]

theorem moveWord_eq (byte : Byte) :
    moveWord byte = fetchWord >>= fun data =>
      Operand.load ⟨.immediate data, .word, false⟩ (registerField byte) := by
  simp only [moveWord, Operand.load, Operand.read, pure_bind, store_word]

theorem compareImmediate_eq (byte : Byte) :
    compareImmediate byte = fetchImmediate (Size.field byte) >>= fun data =>
      Operand.compare ⟨.immediate data, Size.field byte, false⟩ (registerField byte) := by
  simp only [compareImmediate, Operand.compare, Operand.read, pure_bind]

theorem loadShort_eq (byte : Byte) :
    loadShort byte = fetchShortOffset >>= fun offset =>
      Operand.load ⟨.memory 0 offset, Size.field byte, false⟩ (registerField byte) := by
  unfold loadShort
  cases Size.field byte with
  | byte => simp only [Operand.load, Operand.read, pure_bind, LawfulMonad.bind_assoc]
  | word => simp only [Operand.load, Operand.read, pure_bind, LawfulMonad.bind_assoc, store_word]

theorem storeShort_eq (byte : Byte) :
    storeShort byte = fetchShortOffset >>= fun offset => get >>= fun p =>
      Operand.assign ⟨.memory 0 offset, Size.field byte, false⟩ (p.long (registerField byte)) := by
  unfold storeShort
  cases Size.field byte with
  | byte => simp only [Operand.assign, Operand.write, Processor.long, lowByte_of_long]
  | word => simp only [Operand.assign, Operand.write, LawfulMonad.bind_assoc, Processor.long, word_of_long]

end Instruction

namespace GeneralForm

theorem execute_load (operand : Operand) (r : Register) (h : operand.extended = false) :
    execute ⟨operand, 0x10, r⟩ = liftM (operand.load r) := by
  have hslot : Operation.ofSlot (slot ⟨operand, 0x10, r⟩) = .move := rfl
  have hbit : (0x10 : Byte).getLsbD 1 = false := by decide
  simp only [execute, hslot, Operation.execute, Operand.move, h, hbit, Bool.false_eq_true, if_false]

theorem execute_compare (operand : Operand) (r : Register) :
    execute ⟨operand, 0x0E, r⟩ = liftM (operand.compare r) := rfl

theorem execute_store (page : Byte) (offset : Word) (size : Size) (r : Register) :
    execute ⟨⟨.memory page offset, size, false⟩, 0x12, r⟩ =
      liftM (get >>= fun p => Operand.assign ⟨.memory page offset, size, false⟩ (p.long r)) := by
  have hslot : Operation.ofSlot (slot ⟨⟨.memory page offset, size, false⟩, 0x12, r⟩) = .move := rfl
  have hbit : (0x12 : Byte).getLsbD 1 = true := by decide
  simp only [execute, hslot, Operation.execute, Operand.move, hbit, Bool.false_eq_true, if_false, if_true]
  cases size <;> rfl

end GeneralForm

end Microcontroller
