import Microcontroller.Hexadecimal
import Microcontroller.Size

namespace Microcontroller

inductive Trap where
  | unimplemented (code : Byte)
  | invalidOperand (operation : Byte) (sub : Register)
  | invalidSecondary (first second : Byte)
  | divideByZero
  | controlRegister (index : Byte) (size : Size)
  | misalignedStack (pointer : Word)
  deriving DecidableEq

namespace Trap

open Hexadecimal in
def message : Trap → String
  | unimplemented code => "unimplemented opcode " ++ ofByte code
  | invalidOperand operation sub =>
    "invalid operand shape for opcode " ++ ofByte operation ++ " (sub-register " ++ toString sub.val ++ ")"
  | invalidSecondary first second => "invalid secondary byte " ++ ofByte second ++ " after " ++ ofByte first
  | divideByZero => "divide by zero"
  | controlRegister index size =>
    "no control register " ++ toString index.toNat ++ " with " ++ size.name ++ " access"
  | misalignedStack pointer => "stack pointer misaligned after RTD: " ++ ofWord pointer

end Trap

end Microcontroller
