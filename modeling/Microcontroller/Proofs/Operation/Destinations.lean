import Microcontroller.Proofs.Instruction.Conduct

namespace Microcontroller

open Conduct Processor

def Place.registers : Place → List Register
  | .register r => [r]
  | _ => []

namespace Grammar

def destinations (own : List Register) (size : Size) (index : Byte) (sub : Register) : List Register :=
  match index.toNat with
  | 0x01 | 0x03 | 0x09 | 0x0B | 0x13 => own
  | 0x02 => if sub = 6 then [] else own
  | 0x04 | 0x05 | 0x06 | 0x07 | 0x08 | 0x0A | 0x0C | 0x10 | 0x14 | 0x16 => [sub]
  | 0x12 => if size = .word ∧ own ≠ [] then sub :: own else []
  | 0x15 | 0x17 =>
    match size with
    | .byte => [sub]
    | .word => [pairHigh sub, pairLow sub]
  | n => if 0x18 ≤ n ∧ n ≤ 0x1D then own else []

/-- The operations with a byte that set a whole register: the signed additions and subtractions, products, quotients and
what exchanges or extends the halves of a register. -/
def widens (index : Byte) (sub : Register) : Bool :=
  match index.toNat with
  | 0x02 => sub ≤ 2
  | 0x05 | 0x07 | 0x15 | 0x17 => true
  | _ => false

def setsWhole (index : Byte) (sub : Register) : Bool :=
  match index.toNat with
  | 0x08 | 0x0C | 0x12 => true
  | _ => widens index sub

end Grammar

open Grammar

def Conduct.Allows (R : Conduct) (operand : Operand) (index : Byte) (sub : Register) : Prop :=
  ∀ d ∈ destinations operand.place.registers operand.size index sub,
    if setsWhole index sub then Setting R d else Storing R d operand.size

namespace Operand

variable (R : Conduct)

theorem holding {operand : Operand} (h : ∀ d ∈ operand.place.registers, Storing R d operand.size) : Holding R operand where
  hold r hr := h r (by rw [hr]; exact List.mem_singleton_self r)

instance (page : Byte) (offset : Word) (size : Size) (extended : Bool) :
    Holding R ⟨.memory page offset, size, extended⟩ := ⟨nofun⟩

instance (data : Word) (size : Size) (extended : Bool) : Holding R ⟨.immediate data, size, extended⟩ := ⟨nofun⟩

variable [Accessing R]

variable [Controlling R] (operand : Operand)

theorem moveImmediate_confined [Fetching R] (index : Byte) (sub : Register) : (operand.moveImmediate index sub).Keeps R := by
  obtain ⟨place, size, extended⟩ := operand
  cases place with
  | register r => exact inferInstanceAs ((throw (.invalidOperand index sub) : Attempt Unit).Keeps R)
  | memory page offset | immediate data => infer_instance

theorem unary_confined (index : Byte) (sub : Register) (h : R.Allows operand 0x02 sub) :
    (operand.unary index sub).Keeps R := by
  unfold unary
  split
  next => infer_instance
  -- The halves of a register are swapped, or the low one is extended.
  iterate 3
    next r hplace hsize =>
      have hr : r ∈ operand.place.registers := hplace ▸ List.mem_singleton_self r
      have : Setting R r := h r hr
      infer_instance
  -- The operand is cleared, negated or complemented.
  iterate 3
    next =>
      have : Holding R operand := holding R h
      infer_instance
  all_goals infer_instance

theorem move_load_confined (sub : Register) (h : R.Allows operand 0x10 sub) : (operand.move 0x10 sub).Keeps R := by
  have : Storing R sub operand.size := h sub (List.mem_singleton_self sub)
  have hbit : (0x10 : Byte).getLsbD 1 = false := by decide
  simp only [move, hbit, Bool.false_eq_true, if_false]
  infer_instance

theorem move_store_confined (sub : Register) (h : R.Allows operand 0x12 sub) : (operand.move 0x12 sub).Keeps R := by
  obtain ⟨place, size, extended⟩ := operand
  match place, size, extended with
  | _, _, true => exact inferInstanceAs ((throw _ : Attempt Unit).Keeps R)
  | .register _, .byte, false => exact inferInstanceAs ((throw _ : Attempt Unit).Keeps R)
  | .register r, .word, false =>
    have : Setting R sub := h sub List.mem_cons_self
    have : Setting R r := h r (List.mem_cons_of_mem _ (List.mem_singleton_self r))
    exact inferInstanceAs ((liftM (Routine.exchange sub r) : Attempt Unit).Keeps R)
  | .memory _ _, .byte, false | .memory _ _, .word, false | .immediate _, .byte, false | .immediate _, .word, false =>
    have hbit : (0x12 : Byte).getLsbD 1 = true := by decide
    simp only [move, hbit, Bool.false_eq_true, if_false, if_true]
    infer_instance

theorem multiply_confined (sub : Register) (h : R.Allows operand 0x15 sub) : (operand.multiply sub).Keeps R := by
  obtain ⟨place, size, extended⟩ := operand
  unfold multiply
  cases size with
  | byte =>
    have : Setting R sub := h sub (List.mem_singleton_self sub)
    dsimp only
    infer_instance
  | word =>
    have : Setting R (pairHigh sub) := h _ List.mem_cons_self
    have : Setting R (pairLow sub) := h _ (List.mem_cons_of_mem _ (List.mem_singleton_self _))
    dsimp only
    infer_instance

set_option synthInstance.maxSize 512 in
theorem divide_confined (sub : Register) (h : R.Allows operand 0x17 sub) : (operand.divide sub).Keeps R := by
  obtain ⟨place, size, extended⟩ := operand
  unfold divide
  cases size with
  | byte =>
    have : Setting R sub := h sub (List.mem_singleton_self sub)
    dsimp only
    infer_instance
  | word =>
    have : Setting R (pairHigh sub) := h _ List.mem_cons_self
    have : Setting R (pairLow sub) := h _ (List.mem_cons_of_mem _ (List.mem_singleton_self _))
    dsimp only
    infer_instance

end Operand

theorem Operation.execute_confined (R : Conduct) [Accessing R] [Controlling R] [Fetching R] (operand : Operand)
    (sub : Register) : ∀ n (h : n < 32), R.Allows operand (BitVec.ofNat 8 n) sub →
      ((Operation.ofSlot ⟨n, h⟩).execute operand (BitVec.ofNat 8 n) sub).Keeps R
  | 0x00, _, _ => operand.moveImmediate_confined R 0x00 sub
  | 0x01, _, h =>
    have : Holding R operand := Operand.holding R h
    inferInstanceAs ((operand.addQuick 0x01 sub).Keeps R)
  | 0x02, _, h => operand.unary_confined R 0x02 sub h
  | 0x03, _, h =>
    have : Holding R operand := Operand.holding R h
    inferInstanceAs ((operand.shift 0x03 sub).Keeps R)
  | 0x04, _, h =>
    have : Storing R sub operand.size := h sub (List.mem_singleton_self sub)
    inferInstanceAs ((liftM (operand.accumulate Arithmetic.add sub) : Attempt Unit).Keeps R)
  | 0x05, _, h =>
    have : Setting R sub := h sub (List.mem_singleton_self sub)
    inferInstanceAs ((liftM (operand.adjust (· + ·) sub) : Attempt Unit).Keeps R)
  | 0x06, _, h =>
    have : Storing R sub operand.size := h sub (List.mem_singleton_self sub)
    inferInstanceAs ((liftM (operand.accumulate Arithmetic.subtract sub) : Attempt Unit).Keeps R)
  | 0x07, _, h =>
    have : Setting R sub := h sub (List.mem_singleton_self sub)
    inferInstanceAs ((liftM (operand.adjust (· - ·) sub) : Attempt Unit).Keeps R)
  | 0x08, _, h =>
    have : Setting R sub := h sub (List.mem_singleton_self sub)
    inferInstanceAs ((liftM (operand.combineWhole (· ||| ·) sub) : Attempt Unit).Keeps R)
  | 0x09, _, h =>
    have : Holding R operand := Operand.holding R h
    inferInstanceAs ((operand.setBit sub).Keeps R)
  | 0x0A, _, h =>
    have : Storing R sub operand.size := h sub (List.mem_singleton_self sub)
    inferInstanceAs ((liftM (operand.conjoin sub) : Attempt Unit).Keeps R)
  | 0x0B, _, h =>
    have : Holding R operand := Operand.holding R h
    inferInstanceAs ((operand.clearBit sub).Keeps R)
  | 0x0C, _, h =>
    have : Setting R sub := h sub (List.mem_singleton_self sub)
    inferInstanceAs ((liftM (operand.combineWhole (· ^^^ ·) sub) : Attempt Unit).Keeps R)
  | 0x0D, _, _ => inferInstanceAs ((throw (.unimplemented 0x0D) : Attempt Unit).Keeps R)
  | 0x0E, _, _ => inferInstanceAs ((liftM (operand.compare sub) : Attempt Unit).Keeps R)
  | 0x0F, _, _ => inferInstanceAs ((operand.testBit 0x0F sub).Keeps R)
  | 0x10, _, h => operand.move_load_confined R sub h
  | 0x11, _, _ => inferInstanceAs ((operand.loadControl sub).Keeps R)
  | 0x12, _, h => operand.move_store_confined R sub h
  | 0x13, _, h =>
    have : Holding R operand := Operand.holding R h
    inferInstanceAs ((operand.storeControl sub).Keeps R)
  | 0x14, _, h =>
    have : Storing R sub operand.size := h sub (List.mem_singleton_self sub)
    inferInstanceAs ((liftM (operand.accumulateExtended Arithmetic.add sub) : Attempt Unit).Keeps R)
  | 0x15, _, h =>
    have := operand.multiply_confined R sub h
    inferInstanceAs ((liftM (operand.multiply sub) : Attempt Unit).Keeps R)
  | 0x16, _, h =>
    have : Storing R sub operand.size := h sub (List.mem_singleton_self sub)
    inferInstanceAs ((liftM (operand.accumulateExtended Arithmetic.subtract sub) : Attempt Unit).Keeps R)
  | 0x17, _, h => operand.divide_confined R sub h
  | 0x18, _, h =>
    have : Holding R operand := Operand.holding R h
    inferInstanceAs ((operand.numberedBit .set 0x18 sub).Keeps R)
  | 0x19, _, h =>
    have : Holding R operand := Operand.holding R h
    inferInstanceAs ((operand.numberedBit .set 0x19 sub).Keeps R)
  | 0x1A, _, h =>
    have : Holding R operand := Operand.holding R h
    inferInstanceAs ((operand.numberedBit .clear 0x1A sub).Keeps R)
  | 0x1B, _, h =>
    have : Holding R operand := Operand.holding R h
    inferInstanceAs ((operand.numberedBit .clear 0x1B sub).Keeps R)
  | 0x1C, _, h =>
    have : Holding R operand := Operand.holding R h
    inferInstanceAs ((operand.numberedBit .invert 0x1C sub).Keeps R)
  | 0x1D, _, h =>
    have : Holding R operand := Operand.holding R h
    inferInstanceAs ((operand.numberedBit .invert 0x1D sub).Keeps R)
  | 0x1E, _, _ => inferInstanceAs ((operand.numberedBit .test 0x1E sub).Keeps R)
  | 0x1F, _, _ => inferInstanceAs ((operand.numberedBit .test 0x1F sub).Keeps R)
  | n + 32, h, _ => absurd h (by omega)

end Microcontroller
