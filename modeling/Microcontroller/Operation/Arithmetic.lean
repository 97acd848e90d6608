import Microcontroller.Operand.Basic

/-!
Adding, subtracting and comparing. The extended forms take the carry in and never set a clear zero flag,
so the flag tells of a number of many words whether all of it is zero.
-/

namespace Microcontroller

def quickValue? (sub : Register) : Option Long :=
  match sub with
  | 0 => some 1
  | 1 => some 2
  | 4 => some (-1)
  | 5 => some (-2)
  | _ => none

namespace Operand

open Routine

def accumulate (calculate : Arithmetic.Calculation) (operand : Operand) (r : Register) : Routine Unit := do
  let source ← operand.read
  let result ← conclude (calculate ((← get).long r) source false operand.size)
  store r result operand.size

def accumulateExtended (calculate : Arithmetic.Calculation) (operand : Operand) (r : Register) :
    Routine Unit := do
  let source ← operand.read
  let p ← get
  let result ← conclude (calculate (p.long r) source (p.status.get .carry) operand.size)
  unless p.status.get .zero do updateStatus (·.set .zero false)
  store r result operand.size

def compare (operand : Operand) (r : Register) : Routine Unit := do
  let source ← operand.read
  let _ ← conclude (Arithmetic.subtract ((← get).long r) source false operand.size)

def adjust (calculate : Word → Word → Word) (operand : Operand) (r : Register) : Routine Unit := do
  let source := operand.size.signExtend (← operand.read)
  modify fun p => p.setReg r (calculate (p.reg r) (source.setWidth 16))

/-- A field without a quick value adds zero and stores the sum before it traps. -/
def addQuick (operand : Operand) (index : Byte) (sub : Register) : Attempt Unit := do
  let value ← operand.read
  let sum ← conclude (Arithmetic.add value ((quickValue? sub).getD 0) false operand.size)
  operand.write sum
  if (quickValue? sub).isNone then throw (.invalidOperand index sub)

end Operand

end Microcontroller
