import Microcontroller.Operand.Basic
import Microcontroller.Processor.ControlRegister

namespace Microcontroller

def Routine.exchange (a b : Register) : Routine Unit :=
  modify fun p => (p.setReg a (p.reg b)).setReg b (p.reg a)

namespace Operand

open Routine Attempt

def load (operand : Operand) (r : Register) : Routine Unit := do
  let value ← operand.read
  store r value operand.size
  report value operand.size

def assign (operand : Operand) (value : Long) : Routine Unit := do
  operand.write value
  report value operand.size

/-- Bit 1 of the index tells a store from a load; a store to a word register is an exchange. -/
def move (operand : Operand) (index : Byte) (sub : Register) : Attempt Unit := do
  if operand.extended then throw (.invalidOperand index sub)
  if index.getLsbD 1 then
    match operand.place, operand.size with
    | .register _, .byte => throw (.invalidOperand index sub)
    | .register r, .word => exchange sub r
    | _, _ => operand.assign ((← get).long sub)
  else operand.load sub

def compareWith (operand : Operand) (value : Long) (data : Word) : Routine Unit := do
  let _ ← conclude (Arithmetic.subtract value (data.setWidth 32) false operand.size)

/-- Stores to and comparisons with an immediate that follows the operation byte. A byte is sign-extended,
and a word immediate is fetched whole whatever the operand's width. -/
def moveImmediate (operand : Operand) (index : Byte) (sub : Register) : Attempt Unit := do
  unless operand.isMemory do throw (.invalidOperand index sub)
  match sub with
  | 4 => do
    let value ← operand.read
    operand.compareWith value (← fetchDisplacement)
  | 5 => do
    let value ← operand.read
    operand.compareWith value (← fetchWord)
  | 6 => operand.assign ((← fetchDisplacement).setWidth 32)
  | 7 => operand.assign ((← fetchWord).setWidth 32)
  | _ => throw (.invalidOperand index sub)

def loadControl (operand : Operand) (sub : Register) : Attempt Unit := do
  let data ← operand.read
  writeControl (BitVec.ofNat 8 sub.val) operand.size data
  holdInterrupts

def storeControl (operand : Operand) (sub : Register) : Attempt Unit := do
  let data ← readControl (BitVec.ofNat 8 sub.val) operand.size
  operand.write data

end Operand

end Microcontroller
