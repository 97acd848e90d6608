import Microcontroller.Status

namespace Microcontroller

structure Processor where
  registers : Vector Word 8
  pc : Word
  codePage : Byte
  status : Status
  /-- The high byte of short absolute addresses. -/
  base : Byte
  dataPage : Byte
  extendedPage : Byte
  stackPage : Byte
  asleep : Bool
  /-- Interrupts wait for one more instruction. -/
  holdsInterrupts : Bool
  deriving DecidableEq

namespace Processor

def new : Processor where
  registers := Vector.replicate 8 0
  pc := 0
  codePage := 0
  status := ⟨0⟩
  base := 0
  dataPage := 0
  extendedPage := 0
  stackPage := 0
  asleep := false
  holdsInterrupts := false

def framePointer : Register := 6

def stackPointer : Register := 7

def pairHigh (r : Register) : Register := ⟨r.val / 2 * 2, by omega⟩

def pairLow (r : Register) : Register := ⟨r.val / 2 * 2 + 1, by omega⟩

def reg (p : Processor) (r : Register) : Word := p.registers[r]

def long (p : Processor) (r : Register) : Long := (p.reg r).setWidth 32

def setReg (p : Processor) (r : Register) (value : Word) : Processor :=
  { p with registers := p.registers.set r value }

@[simp] theorem reg_setReg (p : Processor) (r s : Register) (value : Word) :
    (p.setReg r value).reg s = if s = r then value else p.reg s := by
  simp only [reg, setReg, Fin.getElem_fin, Vector.getElem_set, Fin.ext_iff, eq_comm]

theorem setReg_reg (p : Processor) (r : Register) : p.setReg r (p.reg r) = p := by
  simp [setReg, reg]

theorem setReg_setReg (p : Processor) (r : Register) (value other : Word) :
    (p.setReg r value).setReg r other = p.setReg r other := by
  simp [setReg]

def store (p : Processor) (r : Register) (value : Long) : Size → Processor
  | .byte => p.setReg r (withLow (p.reg r) (value.setWidth 8))
  | .word => p.setReg r (value.setWidth 16)

def pageOf (p : Processor) (number : Nat) : Byte :=
  if number < 4 then p.dataPage else if number < 6 then p.extendedPage else p.stackPage

def updateStatus (p : Processor) (f : Status → Status) : Processor := { p with status := f p.status }

def releaseInterrupts (p : Processor) : Bool × Processor :=
  (p.holdsInterrupts, { p with holdsInterrupts := false })

end Processor

end Microcontroller
