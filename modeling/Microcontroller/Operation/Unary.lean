import Microcontroller.Operand.Basic

namespace Microcontroller

namespace Routine

def swapHalves (r : Register) : Routine Unit := do
  let value := swapBytes ((← get).reg r)
  setReg r value
  report (value.setWidth 32) .word

/-- The flags describe the register as it was before the extension. -/
def extendSigned (r : Register) : Routine Unit := do
  let value := (← get).reg r
  setReg r ((lowByte value).signExtend 16)
  report (value.setWidth 32) .word

def extendUnsigned (r : Register) : Routine Unit := do
  let value := (lowByte ((← get).reg r)).setWidth 16
  setReg r value
  setCodes false (value == 0) false false

end Routine

namespace Operand

open Routine

def clear (operand : Operand) : Routine Unit := do
  operand.write 0
  setCodes false true false false

def test (operand : Operand) : Routine Unit := do
  let value ← operand.read
  report value operand.size
  updateStatus (·.set .carry false)

def complement (operand : Operand) : Routine Unit := do
  let value := ~~~(← operand.read)
  operand.write value
  report value operand.size

def negate (operand : Operand) : Routine Unit := do
  let value ← operand.read
  let difference ← conclude (Arithmetic.subtract 0 value false operand.size)
  operand.write difference

def unary (operand : Operand) (index : Byte) (sub : Register) : Attempt Unit :=
  match sub, operand.place, operand.size with
  | _, .immediate _, _ => throw (.invalidOperand index sub)
  | 0, .register r, .byte => swapHalves r
  | 1, .register r, .byte => extendSigned r
  | 2, .register r, .byte => extendUnsigned r
  | 3, _, _ => clear operand
  | 4, _, _ => negate operand
  | 5, _, _ => complement operand
  | 6, _, _ => test operand
  | _, _, _ => throw (.invalidOperand index sub)

end Operand

end Microcontroller
