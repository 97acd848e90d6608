import Microcontroller.Operand.Basic

namespace Microcontroller

inductive Shift where
  | left
  | arithmeticRight
  | logicalRight
  | rotateLeft
  | rotateRight
  | rotateThroughCarry
  deriving DecidableEq

namespace Shift

def ofField? (sub : Register) : Option Shift :=
  match sub with
  | 0 => some left
  | 1 => some arithmeticRight
  | 2 => some left
  | 3 => some logicalRight
  | 4 => some rotateLeft
  | 5 => some rotateRight
  | 6 => some rotateThroughCarry
  | _ => none

def apply (shift : Shift) (size : Size) (carry : Bool) (value : Long) : Long × Bool :=
  let top := value.getLsbD (size.bits - 1)
  let bottom := value.getLsbD 0
  match shift with
  | left => (value <<< 1, top)
  | arithmeticRight => ((value &&& size.mask >>> 1) >>> 1 ||| value &&& size.signBit, bottom)
  | logicalRight => (value >>> 1, bottom)
  | rotateLeft => (value <<< 1 ||| (BitVec.ofBool top).setWidth 32, top)
  | rotateRight => (value >>> 1 ||| (BitVec.ofBool bottom).setWidth 32 <<< (size.bits - 1), bottom)
  | rotateThroughCarry => (value <<< 1 ||| (BitVec.ofBool carry).setWidth 32, top)

end Shift

namespace Operand

open Routine

def applyShift (shift : Shift) (operand : Operand) : Routine Unit := do
  let value ← operand.read
  let (result, carry) := shift.apply operand.size ((← get).status.get .carry) value
  operand.write result
  updateStatus (·.set .carry carry)
  report result operand.size

def shift (operand : Operand) (index : Byte) (sub : Register) : Attempt Unit :=
  match operand.isImmediate, Shift.ofField? sub with
  | false, some shift => applyShift shift operand
  | _, _ => throw (.invalidOperand index sub)

end Operand

end Microcontroller
