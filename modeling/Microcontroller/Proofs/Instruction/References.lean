import Microcontroller.Proofs.Arithmetic.ExactCodes
import Microcontroller.Proofs.Dialogue.Frame
import Microcontroller.Proofs.Instruction.Twins
import Microcontroller.Proofs.Operation.ExtendedArithmetic

namespace Microcontroller

open Dialogue Routine
open Twin (withRegister withSize wordCode)

inductive Pointer where
  | indirect (r : Register)
  | byteDisplaced (r : Register) (offset : Byte)
  | wordDisplaced (r : Register) (offset : Word)
  | preDecrement (r : Register)
  | postIncrement (r : Register)
  | shortAbsolute (low : Byte)
  | absolute (offset : Word)
  deriving DecidableEq

namespace Pointer

def mode (size : Size) : Pointer → Byte
  | indirect r => withRegister (withSize 0xD0 size) r
  | byteDisplaced r _ => withRegister (withSize 0xE0 size) r
  | wordDisplaced r _ => withRegister (withSize 0xF0 size) r
  | preDecrement r => withRegister (withSize 0xB0 size) r
  | postIncrement r => withRegister (withSize 0xC0 size) r
  | shortAbsolute _ => withSize 0x05 size
  | absolute _ => withSize 0x15 size

def bytes : Pointer → List Byte
  | byteDisplaced _ offset => [offset]
  | wordDisplaced _ offset | absolute offset => wordCode offset
  | shortAbsolute low => [low]
  | _ => []

def page (p : Processor) : Pointer → Byte
  | indirect r | byteDisplaced r _ | wordDisplaced r _ | preDecrement r | postIncrement r => p.pageOf r
  | shortAbsolute _ => 0
  | absolute _ => p.dataPage

def offset (size : Size) (p : Processor) : Pointer → Word
  | indirect r | postIncrement r => p.reg r
  | byteDisplaced r offset => p.reg r + offset.signExtend 16
  | wordDisplaced r offset => p.reg r + offset
  | preDecrement r => p.reg r - AddressingMode.stride r size
  | shortAbsolute low => wordOf p.base low
  | absolute offset => offset

def stepped (size : Size) (p : Processor) : Pointer → Processor
  | preDecrement r => p.setReg r (p.reg r - AddressingMode.stride r size)
  | postIncrement r => p.setReg r (p.reg r + AddressingMode.stride r size)
  | _ => p

def addressing : Pointer → AddressingMode
  | indirect r => .indirect r
  | byteDisplaced r _ => .byteDisplaced r
  | wordDisplaced r _ => .wordDisplaced r
  | preDecrement r => .preDecrement r
  | postIncrement r => .postIncrement r
  | shortAbsolute _ => .shortAbsolute
  | absolute _ => .absolute

theorem mode_fields (pointer : Pointer) (size : Size) :
    Form.ofByte (pointer.mode size) = .general ∧ AddressingMode.ofByte (pointer.mode size) = pointer.addressing ∧
      Size.field (pointer.mode size) = size := by
  cases pointer <;> simp only [mode, addressing] <;> cases size <;> decide +revert

theorem resolve_takes (pointer : Pointer) (size : Size) (p : Processor) :
    Takes p.codePage (p.pc + 1) pointer.bytes ((pointer.addressing.resolve size).run { p with pc := p.pc + 1 })
      (.done (.memory (pointer.page p) (pointer.offset size p),
        { pointer.stepped size p with pc := advance (p.pc + 1) pointer.bytes.length })) := by
  have hplace (q : Processor) (r : Register) :
      AddressingMode.placeAt q r 0 = .memory (q.pageOf r) (q.reg r) :=
    congrArg (Place.memory _) (BitVec.add_zero _)
  cases pointer with
  | indirect r => exact congrArg (fun place => Dialogue.done (place, _)) (hplace _ r)
  | byteDisplaced r offset => exact ⟨_, rfl, rfl⟩
  | wordDisplaced r offset => exact (fetchWord_takes { p with pc := p.pc + 1 } offset).bind_eq rfl
  | preDecrement r =>
    apply congrArg (fun place => Dialogue.done (place, _))
    rw [hplace, Processor.reg_setReg, if_pos rfl]
    rfl
  | postIncrement r => exact congrArg (fun place => Dialogue.done (place, _)) (hplace _ r)
  | shortAbsolute low => exact ⟨_, rfl, rfl⟩
  | absolute offset => exact (fetchWord_takes { p with pc := p.pc + 1 } offset).bind_eq rfl

end Pointer

def Size.code : (size : Size) → BitVec size.bits → List Byte
  | .byte, data => [data]
  | .word, data => wordCode data

theorem Size.cut_long (size : Size) (value : BitVec size.bits) : size.cut (value.setWidth 32) = value := by
  have hbits : size.bits ≤ 32 := by cases size <;> decide
  rw [cut, BitVec.setWidth_setWidth_of_le value hbits, BitVec.setWidth_eq]

inductive Reference (size : Size) where
  | register (r : Register)
  | memory (pointer : Pointer)
  | immediate (data : BitVec size.bits)

namespace Reference

variable {size : Size}

def mode : Reference size → Byte
  | register r => withRegister (withSize 0xA0 size) r
  | memory pointer => pointer.mode size
  | immediate _ => withSize 0x04 size

def bytes : Reference size → List Byte
  | register _ => []
  | memory pointer => pointer.bytes
  | immediate data => size.code data

def encode (reference : Reference size) (escaped : Bool) (operation : Byte) : List Byte :=
  reference.mode :: (reference.bytes ++ Instruction.operationCode operation escaped)

def place (p : Processor) : Reference size → Place
  | register r => .register r
  | memory pointer => .memory (pointer.page p) (pointer.offset size p)
  | immediate data => .immediate (data.setWidth 16)

def stepped (p : Processor) : Reference size → Processor
  | memory pointer => pointer.stepped size p
  | _ => p

def addressing : Reference size → AddressingMode
  | register r => .direct r
  | memory pointer => pointer.addressing
  | immediate _ => .immediate

theorem mode_fields (reference : Reference size) :
    Form.ofByte reference.mode = .general ∧ AddressingMode.ofByte reference.mode = reference.addressing ∧
      Size.field reference.mode = size := by
  cases reference with
  | register r => simp only [mode, addressing]; cases size <;> decide +revert
  | memory pointer => exact pointer.mode_fields size
  | immediate data => simp only [mode, addressing]; cases size <;> decide

theorem resolve_takes (reference : Reference size) (p : Processor) :
    Takes p.codePage (p.pc + 1) reference.bytes ((reference.addressing.resolve size).run { p with pc := p.pc + 1 })
      (.done (reference.place p,
        { reference.stepped p with pc := advance (p.pc + 1) reference.bytes.length })) := by
  cases reference with
  | register r => rfl
  | memory pointer => exact pointer.resolve_takes size p
  | immediate data =>
    cases size with
    | byte => exact ⟨_, rfl, rfl⟩
    | word =>
      apply (fetchWord_takes { p with pc := p.pc + 1 } data).bind_eq
      exact congrArg (fun value => Dialogue.done (Place.immediate value, _)) (BitVec.setWidth_eq (data : Word)).symm

theorem codePage_stepped (reference : Reference size) (p : Processor) :
    (reference.stepped p).codePage = p.codePage := by
  cases reference with
  | memory pointer => cases pointer <;> rfl
  | _ => rfl

theorem status_stepped (reference : Reference size) (p : Processor) : (reference.stepped p).status = p.status := by
  cases reference with
  | memory pointer => cases pointer <;> rfl
  | _ => rfl

def operand (p : Processor) (escaped : Bool) (reference : Reference size) : Operand := ⟨reference.place p, size, escaped⟩

theorem step_takes (reference : Reference size) (p : Processor) {escaped : Bool} {operation : Byte} {x : Routine Unit}
    (hoperation : operation ≠ 0)
    (hexecute : GeneralForm.execute ⟨reference.operand p escaped, operation >>> 3, registerField operation⟩ =
      liftM x) :
    Takes p.codePage p.pc (reference.encode escaped operation) (Instruction.step.run p)
      (completed (x.run
        { reference.stepped p with pc := p.pc + BitVec.ofNat 16 (reference.encode escaped operation).length })) := by
  obtain ⟨hform, hmode, hsize⟩ := reference.mode_fields
  let q : Processor := { reference.stepped p with pc := advance (p.pc + 1) reference.bytes.length }
  have hresolve : Takes p.codePage (p.pc + 1) reference.bytes
      (((AddressingMode.ofByte reference.mode).resolve (Size.field reference.mode)).run { p with pc := p.pc + 1 })
      (.done (reference.place p, q)) := by
    rw [hmode, hsize]
    exact reference.resolve_takes p
  have hstep := Instruction.step_takes_form (x := x) hform hresolve (reference.codePage_stepped p) rfl hoperation
    (by rw [hsize]; exact hexecute)
  have hpc : advance q.pc (Instruction.operationCode operation escaped).length =
      p.pc + BitVec.ofNat 16 (reference.encode escaped operation).length := by
    change advance (advance (p.pc + 1) reference.bytes.length) _ = _
    rw [advance_eq, advance_eq, BitVec.add_assoc, ← BitVec.ofNat_add, add_one_add_ofNat, encode, List.length_cons,
      List.length_append]
  rw [hpc] at hstep
  exact hstep

def reads (page : Byte) (offset : Word) : (size : Size) → BitVec size.bits → List Call
  | .byte, value => [.read (address page offset) value]
  | .word, value =>
    (if offset.getLsbD 0 then [.notify (.fault .addressError)] else []) ++
      [.read (evenAddress (address page offset)) (highByte value), .read (oddAddress (address page offset)) (lowByte value)]

def Supplies (p : Processor) (calls : List Call) (value : BitVec size.bits) : Reference size → Prop
  | register r => traffic calls = [] ∧ value = size.cut (p.long r)
  | memory pointer => traffic calls = reads (pointer.page p) (pointer.offset size p) size value
  | immediate data => traffic calls = [] ∧ value = data

theorem reads_injective {page : Byte} {offset : Word} {value value' : BitVec size.bits}
    (h : reads page offset size value = reads page offset size value') : value = value' := by
  cases size with
  | byte =>
    injection h with h
    injection h
  | word =>
    have hbytes := List.append_cancel_left h
    injection hbytes with hhigh hlow
    injection hhigh with _ hhigh
    injection hlow with hlow
    injection hlow with _ hlow
    rw [← wordOf_bytes value, ← wordOf_bytes value', hhigh, hlow]

variable {reference : Reference size} {p : Processor} {calls calls' : List Call} {value value' : BitVec size.bits}

theorem Supplies.unique (h : reference.Supplies p calls value) (h' : reference.Supplies p calls value') :
    value = value' := by
  cases reference with
  | register r => exact h.2.trans h'.2.symm
  | memory pointer => exact reads_injective (Eq.trans (Eq.symm h) h')
  | immediate data => exact h.2.trans h'.2.symm

theorem Supplies.congr (h : reference.Supplies p calls value) (htraffic : traffic calls' = traffic calls) :
    reference.Supplies p calls' value := by
  cases reference with
  | register r => exact ⟨htraffic.trans h.1, h.2⟩
  | memory pointer => exact htraffic.trans h
  | immediate data => exact ⟨htraffic.trans h.1, h.2⟩

theorem reads_quiet (page : Byte) (offset : Word) (value : BitVec size.bits) :
    traffic (reads page offset size value) = reads page offset size value ∧
      codeBytes (reads page offset size value) = [] ∧ writtenAddresses (reads page offset size value) = [] := by
  cases size with
  | byte => exact ⟨rfl, rfl, rfl⟩
  | word =>
    simp only [reads]
    split <;> exact ⟨rfl, rfl, rfl⟩

theorem Supplies.writtenAddresses_eq (h : reference.Supplies p calls value) : writtenAddresses calls = [] := by
  rw [← writtenAddresses_traffic]
  cases reference with
  | register r => exact congrArg writtenAddresses h.1
  | memory pointer => exact (congrArg writtenAddresses h).trans (reads_quiet _ _ value).2.2
  | immediate data => exact congrArg writtenAddresses h.1

section Read

variable {σ : Type} [Host σ] (host : σ)

theorem read_memory (page : Byte) (offset : Word) (size : Size) (escaped : Bool) (q : Processor) :
    let operand : Operand := ⟨.memory page offset, size, escaped⟩
    ∃ value : BitVec size.bits, operand.value q host = value.setWidth 32 ∧
      (operand.read.run q).transcript host = reads page offset size value := by
  intro operand
  cases size with
  | byte => exact ⟨_, rfl, rfl⟩
  | word =>
    simp only [operand, Operand.value, Operand.read, run_bind, run_checkAlignment, reads]
    split
    all_goals
      refine ⟨wordOf _ _, rfl, ?_⟩
      rw [highByte_wordOf, lowByte_wordOf]
      rfl

theorem read_supplies (reference : Reference size) (p : Processor) (escaped : Bool) (pc : Word) :
    let operand := reference.operand p escaped
    let q := { reference.stepped p with pc := pc }
    codeBytes ((operand.read.run q).transcript host) = [] ∧
      reference.Supplies p ((operand.read.run q).transcript host) (size.cut (operand.value q host)) := by
  intro operand q
  cases reference with
  | register r => exact ⟨rfl, rfl, size.cut_truncate _⟩
  | memory pointer =>
    obtain ⟨value, hvalue, hcalls⟩ := read_memory host (pointer.page p) (pointer.offset size p) size escaped q
    obtain ⟨htraffic, hcode, -⟩ := reads_quiet (pointer.page p) (pointer.offset size p) value
    refine ⟨(congrArg codeBytes hcalls).trans hcode, ?_⟩
    have hcut : size.cut (operand.value q host) = value := (congrArg size.cut hvalue).trans (size.cut_long value)
    rw [hcut]
    exact (congrArg traffic hcalls).trans htraffic
  | immediate data =>
    refine ⟨rfl, rfl, ?_⟩
    have hlong : (data.setWidth 16).setWidth 32 = data.setWidth 32 := by
      cases size with
      | byte => exact long_of_byte data
      | word => exact congrArg (·.setWidth 32) (BitVec.setWidth_eq (data : Word))
    exact (congrArg size.cut hlong).trans (size.cut_long data)

end Read

end Reference

end Microcontroller
