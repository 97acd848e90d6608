import Microcontroller.Operand.Basic
import Microcontroller.Processor.ControlRegister

/-!
Single-bit operations, which change no flag but zero: it tells whether the bit was clear before. With an
immediate operand, setting and clearing by register become logic on a control register.
-/

namespace Microcontroller

inductive BitChange where
  | set
  | clear
  | invert
  | test
  deriving DecidableEq

namespace BitChange

def apply (change : BitChange) (value mask : Long) : Long :=
  match change with
  | set => value ||| mask
  | clear => value &&& ~~~mask
  | invert => value ^^^ mask
  | test => value

end BitChange

def Processor.bitNumber (p : Processor) (r : Register) : Nat := (p.reg r &&& 0x0F).toNat

/-- The bit number packed into an operation byte: the low bit of the index lies above the field. -/
def bitField (index : Byte) (sub : Register) : Nat := sub.val + 8 * (index &&& 1).toNat

namespace Operand

open Routine Attempt

def changeBit (change : BitChange) (operand : Operand) (number : Nat) : Routine Unit := do
  let value ← operand.read
  let mask := BitVec.twoPow 32 number
  updateStatus (·.set .zero (value &&& mask == 0))
  unless change = .test do operand.write (change.apply value mask)

def combineControl (combine : Long → Long → Long) (operand : Operand) (sub : Register) :
    Attempt Unit := do
  let data ← operand.read
  let number := BitVec.ofNat 8 sub.val
  let value := combine (← readControl number operand.size) data
  writeControl number operand.size value
  if 2 ≤ sub.val then report value operand.size
  holdInterrupts

def setBit (operand : Operand) (sub : Register) : Attempt Unit := do
  if operand.isImmediate then combineControl (· ||| ·) operand sub
  else changeBit .set operand ((← get).bitNumber sub)

def clearBit (operand : Operand) (sub : Register) : Attempt Unit := do
  if operand.isImmediate then combineControl (· &&& ·) operand sub
  else changeBit .clear operand ((← get).bitNumber sub)

def testBit (operand : Operand) (index : Byte) (sub : Register) : Attempt Unit := do
  if operand.isImmediate then throw (.invalidOperand index sub)
  else changeBit .test operand ((← get).bitNumber sub)

def numberedBit (change : BitChange) (operand : Operand) (index : Byte) (sub : Register) :
    Attempt Unit :=
  if operand.isImmediate then throw (.invalidOperand index sub)
  else changeBit change operand (bitField index sub)

end Operand

end Microcontroller
