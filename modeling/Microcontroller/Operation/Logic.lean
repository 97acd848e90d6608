import Microcontroller.Operand.Basic

/-!
Logic between a register and an operand. Inclusive and exclusive or combine the whole register even with
a byte operand; the flags describe the register at the operand's width.
-/

namespace Microcontroller.Operand

open Routine

def combineWhole (combine : Word → Word → Word) (operand : Operand) (r : Register) : Routine Unit := do
  let source ← operand.read
  let result := combine ((← get).reg r) (source.setWidth 16)
  setReg r result
  report (result.setWidth 32) operand.size

def conjoin (operand : Operand) (r : Register) : Routine Unit := do
  let source ← operand.read
  let result := (← get).long r &&& source
  store r result operand.size
  report result operand.size

end Microcontroller.Operand
