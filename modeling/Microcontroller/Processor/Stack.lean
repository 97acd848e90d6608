import Microcontroller.Processor.Access
import Microcontroller.Processor.Update

namespace Microcontroller.Routine

open Processor (stackPointer)

def push (value : Word) : Routine Unit := do
  let p ← get
  checkAlignment (p.reg stackPointer)
  let pointer := p.reg stackPointer - 2
  setReg stackPointer pointer
  writeWord (address 0 pointer) value

def pop : Routine Word := do
  let p ← get
  let pointer := p.reg stackPointer
  checkAlignment pointer
  let value ← readWord (address 0 pointer)
  setReg stackPointer (pointer + 2)
  return value

end Microcontroller.Routine
