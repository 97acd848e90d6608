import Microcontroller.Operand.Basic

/-!
Unsigned multiplication and division. At word width the product and the dividend fill a register pair;
division leaves the remainder in the high half and the quotient in the low half.
-/

namespace Microcontroller

namespace Processor

def dividend (p : Processor) (r : Register) : Size → Long
  | .byte => p.long r
  | .word => p.reg (pairHigh r) ++ p.reg (pairLow r)

def setPair (p : Processor) (r : Register) (value : Long) : Processor :=
  (p.setReg (pairHigh r) (value.extractLsb' 16 16)).setReg (pairLow r) (value.setWidth 16)

end Processor

namespace Operand

open Routine

def multiply (operand : Operand) (r : Register) : Routine Unit := do
  let source ← operand.read
  let product := source * operand.size.truncate ((← get).long r)
  match operand.size with
  | .byte =>
    let product : Word := product.setWidth 16
    setReg r product
    setCodes product.msb (product == 0) false false
  | .word =>
    modify fun p => p.setPair r product
    setCodes product.msb (product == 0) false false

/-- A quotient too wide for the width changes nothing but the flags. -/
def divide (operand : Operand) (r : Register) : Attempt Unit := do
  let divisor ← operand.read
  if divisor = 0 then
    setCodes false true false false
    throw .divideByZero
  let number := (← get).dividend r operand.size
  let quotient := number / divisor
  let remainder := number % divisor
  if operand.size.mask < quotient then setCodes false false true false
  else
    match operand.size with
    | .byte => setReg r (wordOf (remainder.setWidth 8) (quotient.setWidth 8))
    | .word => modify fun p => p.setPair r (remainder.setWidth 16 ++ quotient.setWidth 16)
    report quotient operand.size
    updateStatus (·.set .carry false)

end Operand

end Microcontroller
