import Microcontroller.Size

namespace Microcontroller

structure ConditionCodes where
  negative : Bool
  zero : Bool
  overflow : Bool
  carry : Bool
  deriving DecidableEq

namespace Arithmetic

structure Outcome where
  value : Long
  codes : ConditionCodes
  deriving DecidableEq

abbrev Calculation : Type := Long → Long → Bool → Size → Outcome

def leastSigned : Size → Long
  | .byte => -0x80
  | .word => -0x8000

def greatestSigned : Size → Long
  | .byte => 0x7F
  | .word => 0x7FFF

def outcome (unsigned signed : Long) (size : Size) : Outcome where
  value := size.truncate unsigned
  codes :=
    { negative := size.isNegative unsigned
      zero := size.isZero unsigned
      overflow := signed.slt (leastSigned size) || (greatestSigned size).slt signed
      carry := unsigned.getLsbD size.bits }

def add (a b : Long) (carry : Bool) (size : Size) : Outcome :=
  let c := (BitVec.ofBool carry).setWidth 32
  outcome (size.truncate a + size.truncate b + c) (size.signExtend a + size.signExtend b + c) size

/-- Carry is the borrow. -/
def subtract (a b : Long) (carry : Bool) (size : Size) : Outcome :=
  let c := (BitVec.ofBool carry).setWidth 32
  outcome (size.truncate a - size.truncate b - c) (size.signExtend a - size.signExtend b - c) size

end Arithmetic

end Microcontroller
