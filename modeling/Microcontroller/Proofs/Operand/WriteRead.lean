import Microcontroller.Proofs.Instruction.OperationTraps
import Microcontroller.Proofs.Memory.Words
import Microcontroller.Proofs.Operation.ExtendedArithmetic

namespace Microcontroller

open Conduct Dialogue

theorem Size.truncate_eq_cut (size : Size) (value : Long) : size.truncate value = (size.cut value).setWidth 32 := by
  have hbits : size.bits ≤ 32 := by cases size <;> decide
  apply BitVec.eq_of_toNat_eq
  rw [toNat_truncate, BitVec.toNat_setWidth_of_le hbits]

theorem Processor.setReg_self (p : Processor) (r : Register) (word : Word) :
    p.setReg r ((p.setReg r word).reg r) = p.setReg r word := by
  rw [reg_setReg, if_pos rfl]

theorem Processor.store_store (p : Processor) (r : Register) (value other : Long) (size : Size) :
    (p.store r value size).store r other size = p.store r other size := by
  cases size with
  | byte =>
    have hhigh : highByte ((p.store r value .byte).reg r) = highByte (p.reg r) := by
      rw [store, reg_setReg, if_pos rfl, withLow, highByte_wordOf]
    rw [store, withLow, hhigh, store, setReg_setReg]
    rfl
  | word => exact p.setReg_setReg r _ _

theorem Processor.store_updateStatus (p : Processor) (r : Register) (value : Long) (size : Size) (f : Status → Status) :
    (p.updateStatus f).store r value size = (p.store r value size).updateStatus f := by
  cases size <;> rfl

namespace Operand

def written (operand : Operand) (value : Long) (p : Processor) (m : Memory) : Processor × Memory :=
  let result := ((operand.write value).run p).run m
  (result.1.2, result.2)

section Places

variable (r : Register) (page : Byte) (offset : Word) (extended : Bool) (value : Long) (p : Processor) (m : Memory)

theorem written_register (size : Size) :
    written ⟨.register r, size, extended⟩ value p m = (p.store r value size, m) := rfl

theorem written_byte :
    written ⟨.memory page offset, .byte, extended⟩ value p m = (p, m.write (address page offset) (value.setWidth 8)) := rfl

theorem written_word :
    written ⟨.memory page offset, .word, extended⟩ value p m =
      (p, m.storeWord (address page offset) (value.setWidth 16)) := by
  simp only [written, write, Routine.run_bind, Routine.run_checkAlignment]
  split <;> rfl

theorem value_word :
    Operand.value ⟨.memory page offset, .word, extended⟩ p m = (m.wordAt (address page offset)).setWidth 32 := by
  simp only [Operand.value, read, Routine.run_bind, Routine.run_checkAlignment]
  split <;> rfl

end Places

theorem run_read_memory (operand : Operand) (p : Processor) (m : Memory) :
    (operand.read.run p).run m = ((operand.value p m, p), m) := by
  obtain ⟨-, hstores⟩ := ((inferInstance : operand.read.Keeps Looks).ensures p).transcript m
  have hmemory := (operand.read.run p).run_stores m
  rw [hstores] at hmemory
  rw [run_read, hmemory]
  rfl

theorem written_value (operand : Operand) (p : Processor) (m : Memory) :
    operand.written (operand.size.truncate (operand.value p m)) p m = (p, m) := by
  obtain ⟨-, hlooked⟩ := ((inferInstance : operand.read.Keeps Looks).ensures p).transcript m
  obtain ⟨-, hback⟩ := (operand.read_writes_back p).transcript m
  obtain ⟨hprocessor, -, hstores⟩ := (hback id).transcript m
  have hmemory := ((operand.write (operand.size.truncate (operand.value p m))).run p).run_stores m
  -- What is stored are the bytes that were loaded, so memory holds them already.
  have hheld := (operand.read.run p).read_of_mem_loads m (List.append_nil _).symm hlooked
  exact Prod.ext hprocessor (hmemory.trans ((congrArg _ hstores).trans (m.foldl_write_of_read hheld)))

section Written

variable (operand : Operand) (value other : Long) (p : Processor) (m : Memory)

theorem run_write :
    ((operand.write value).run p).run m = (((), (operand.written value p m).1), (operand.written value p m).2) := rfl

theorem status_written : (operand.written value p m).1.status = p.status := by
  obtain ⟨place, size, extended⟩ := operand
  match place, size with
  | .register r, size => exact p.status_store r value size
  | .memory page offset, .byte | .immediate data, size => rfl
  | .memory page offset, .word => rw [written_word]

theorem written_updateStatus (f : Status → Status) :
    operand.written value (p.updateStatus f) m =
      ((operand.written value p m).1.updateStatus f, (operand.written value p m).2) := by
  obtain ⟨place, size, extended⟩ := operand
  match place, size with
  | .register r, size => exact congrArg (·, m) (p.store_updateStatus r value size f)
  | .memory page offset, .byte | .immediate data, size => rfl
  | .memory page offset, .word => rw [written_word, written_word]

theorem written_written :
    operand.written other (operand.written value p m).1 (operand.written value p m).2 = operand.written other p m := by
  obtain ⟨place, size, extended⟩ := operand
  match place, size with
  | .register r, size => exact congrArg (·, m) (p.store_store r value other size)
  | .memory page offset, .byte => exact congrArg (p, ·) (m.write_write (address page offset) _ _)
  | .memory page offset, .word =>
    rw [written_word, written_word, written_word]
    exact congrArg (p, ·) (m.storeWord_storeWord (address page offset) _ _)
  | .immediate data, size => rfl

theorem written_truncate : operand.written (operand.size.truncate value) p m = operand.written value p m := by
  have hbyte : (Size.byte.truncate value).setWidth 8 = value.setWidth 8 := Size.cut_truncate .byte value
  have hword : (Size.word.truncate value).setWidth 16 = value.setWidth 16 := Size.cut_truncate .word value
  obtain ⟨place, size, extended⟩ := operand
  match place, size with
  | .register r, .byte => rw [written_register, written_register, Processor.store, Processor.store, hbyte]
  | .register r, .word => rw [written_register, written_register, Processor.store, Processor.store, hword]
  | .memory page offset, .byte => rw [written_byte, written_byte, hbyte]
  | .memory page offset, .word => rw [written_word, written_word, hword]
  | .immediate data, size => rfl

end Written

section Bytes

variable (page : Byte) (offset : Word) (extended : Bool) (value : Long) (p : Processor) (m : Memory)

theorem loads_word :
    loads ((read ⟨.memory page offset, .word, extended⟩).run p |>.transcript m) =
      [(evenAddress (address page offset), m.read (evenAddress (address page offset))),
        (oddAddress (address page offset), m.read (oddAddress (address page offset)))] := by
  simp only [read, Routine.run_bind, Routine.run_checkAlignment]
  split <;> rfl

theorem stores_word :
    stores ((write ⟨.memory page offset, .word, extended⟩ value).run p |>.transcript m) =
      [(evenAddress (address page offset), highByte (value.setWidth 16)),
        (oddAddress (address page offset), lowByte (value.setWidth 16))] := by
  simp only [write, Routine.run_bind, Routine.run_checkAlignment]
  split <;> rfl

end Bytes

structure Coincides (operand other : Operand) : Prop where
  value_eq (p : Processor) (m : Memory) : operand.value p m = other.value p m
  loads_eq (p : Processor) (m : Memory) :
    loads ((operand.read.run p).transcript m) = loads ((other.read.run p).transcript m)
  written_eq (value : Long) (p : Processor) (m : Memory) : operand.written value p m = other.written value p m
  stores_eq (value : Long) (p : Processor) (m : Memory) :
    stores (((operand.write value).run p).transcript m) = stores (((other.write value).run p).transcript m)

theorem coincides_word (page : Byte) {offset other : Word} (h : offset &&& 0xFFFE = other &&& 0xFFFE) (extended : Bool) :
    Coincides ⟨.memory page offset, .word, extended⟩ ⟨.memory page other, .word, extended⟩ := by
  have heven : evenAddress (address page offset) = evenAddress (address page other) := by
    rw [evenAddress_address, evenAddress_address, h]
  have hodd : oddAddress (address page offset) = oddAddress (address page other) := by
    rw [oddAddress_address, oddAddress_address, h]
  constructor
  case value_eq =>
    intro p m
    rw [value_word, value_word, Memory.wordAt, Memory.wordAt, heven, hodd]
  case loads_eq =>
    intro p m
    rw [loads_word, loads_word, heven, hodd]
  case written_eq =>
    intro value p m
    rw [written_word, written_word, Memory.storeWord, Memory.storeWord, heven, hodd]
  case stores_eq =>
    intro value p m
    rw [stores_word, stores_word, heven, hodd]

/-- From one state to the next an operand is given a value, and nothing else changes. -/
structure Receives (operand : Operand) (value : Long) (p : Processor) (m : Memory) (q : Processor) (after : Memory) :
    Prop where
  read_eq : (operand.read.run q).run after = ((operand.size.truncate value, q), after)
  rewrite_eq : ((operand.write (operand.value q after)).run q).run after = (((), q), after)
  register : ∀ r, operand.place = .register r →
    after = m ∧ q = p.setReg r (q.reg r) ∧ (operand.size = .byte → highByte (q.reg r) = highByte (p.reg r))
  memory : operand.isMemory = true → q = p
  byte : ∀ page offset extended, operand = ⟨.memory page offset, .byte, extended⟩ →
    ∀ a, after.read a = if a = address page offset then value.setWidth 8 else m.read a
  word : ∀ page offset extended, operand = ⟨.memory page offset, .word, extended⟩ →
    ∀ a, after.read a =
      if a = address page (offset &&& 0xFFFE) then highByte (value.setWidth 16)
      else if a = address page ((offset &&& 0xFFFE) + 1) then lowByte (value.setWidth 16)
      else m.read a

section WriteRead

variable {operand : Operand} (h : operand.isImmediate = false) (value : Long) (p : Processor) (m : Memory)

include h

theorem value_written :
    operand.value (operand.written value p m).1 (operand.written value p m).2 = operand.size.truncate value := by
  obtain ⟨place, size, extended⟩ := operand
  cases place with
  | register r =>
    change size.truncate ((p.store r value size).long r) = size.truncate value
    rw [size.truncate_eq_cut, p.cut_long_store, ← size.truncate_eq_cut]
  | memory page offset =>
    cases size with
    | byte =>
      rw [written_byte, Size.truncate_eq_cut]
      have hread := (m.read_write (address page offset) (address page offset) (value.setWidth 8)).trans (if_pos rfl)
      exact congrArg (BitVec.setWidth 32) hread
    | word =>
      rw [written_word]
      dsimp only
      rw [value_word, m.wordAt_storeWord, Size.truncate_eq_cut]
      rfl
  | immediate data => cases h

theorem receives_written :
    operand.Receives value p m (operand.written value p m).1 (operand.written value p m).2 := by
  constructor
  case read_eq => rw [run_read_memory, value_written h]
  case rewrite_eq =>
    have hback := operand.written_value (operand.written value p m).1 (operand.written value p m).2
    rw [value_written h, Size.truncate_truncate] at hback
    rw [value_written h]
    exact congrArg (fun state : Processor × Memory => (((), state.1), state.2)) hback
  case register =>
    intro r hplace
    obtain ⟨place, size, extended⟩ := operand
    cases hplace
    rw [written_register]
    cases size with
    | byte =>
      refine ⟨rfl, (p.setReg_self r _).symm, fun _ => ?_⟩
      change highByte ((p.setReg r _).reg r) = _
      rw [Processor.reg_setReg, if_pos rfl, withLow, highByte_wordOf]
    | word => exact ⟨rfl, (p.setReg_self r _).symm, fun h => Size.noConfusion h⟩
  case memory =>
    intro hmemory
    obtain ⟨place, size, extended⟩ := operand
    cases place with
    | memory page offset =>
      cases size with
      | byte => rw [written_byte]
      | word => rw [written_word]
    | register r | immediate data => cases hmemory
  case byte =>
    rintro page offset extended rfl a
    rw [written_byte]
    exact m.read_write _ _ _
  case word =>
    rintro page offset extended rfl a
    rw [written_word]
    dsimp only
    rw [m.read_storeWord_eq, evenAddress_address, oddAddress_address]

theorem write_then_read :
    ∃ q after, ((operand.write value).run p).run m = (((), q), after) ∧ operand.Receives value p m q after ∧
      ∀ page offset extended, operand = ⟨.memory page offset, .word, extended⟩ →
        (offset.getLsbD 0 = true → operand.Coincides ⟨.memory page (offset - 1), .word, extended⟩) ∧
        (offset.getLsbD 0 = false → ∀ extended,
          ((read ⟨.memory page offset, .byte, extended⟩).run q).run after =
            (((highByte (value.setWidth 16)).setWidth 32, q), after) ∧
          ((read ⟨.memory page (offset + 1), .byte, extended⟩).run q).run after =
            (((lowByte (value.setWidth 16)).setWidth 32, q), after)) := by
  have hreceives := receives_written h value p m
  refine ⟨_, _, rfl, hreceives, fun page offset extended hword => ⟨fun hodd => ?_, fun heven view => ?_⟩⟩
  · subst hword
    exact coincides_word page (and_even_of_odd hodd).symm extended
  · have hread := hreceives.word page offset extended hword
    have hne : address page (offset + 1) ≠ address page offset := by
      have hother := (evenAddress_ne_oddAddress (address page offset) (address page offset)).symm
      rwa [oddAddress_address, evenAddress_address, and_even_of_even heven] at hother
    rw [and_even_of_even heven] at hread
    have hhigh := (hread (address page offset)).trans (if_pos rfl)
    have hlow := (hread (address page (offset + 1))).trans ((if_neg hne).trans (if_pos rfl))
    rw [run_read_memory, run_read_memory]
    exact ⟨congrArg (fun byte : Byte => ((byte.setWidth 32, _), _)) hhigh,
      congrArg (fun byte : Byte => ((byte.setWidth 32, _), _)) hlow⟩

end WriteRead

theorem write_then_read_page_end :
    let operand : Operand := ⟨.memory 0x01 0xFFFF, .word, false⟩
    let m := Memory.filled 0x55
    operand.isImmediate = false ∧
      ∃ q after, ((operand.write 0xABCD1234).run Processor.new).run m = (((), q), after) ∧
        operand.Receives 0xABCD1234 Processor.new m q after ∧
        operand.Coincides ⟨.memory 0x01 0xFFFE, .word, false⟩ ∧
        after.read 0x0001FFFE = 0x12 ∧ after.read 0x0001FFFF = 0x34 ∧ after.read 0x00020000 = 0x55 := by
  intro operand m
  obtain ⟨q, after, hrun, hreceives, hword⟩ := @write_then_read operand rfl 0xABCD1234 Processor.new m
  have hread := hreceives.word 0x01 0xFFFF false rfl
  exact ⟨rfl, q, after, hrun, hreceives, (hword 0x01 0xFFFF false rfl).1 rfl, hread _, hread _, hread _⟩

end Operand

end Microcontroller
