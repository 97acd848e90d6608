import Microcontroller.Condition
import Microcontroller.Processor.Stack

namespace Microcontroller.Instruction

open Routine

def branchConditionally (byte : Byte) : Routine Unit := do
  let offset ← if byte.getLsbD 4 then fetchWord else fetchDisplacement
  if (Condition.ofByte byte).holds (← get).status.codes then branch offset

def callRelative (byte : Byte) : Routine Unit := do
  let offset ← if byte = 0x0E then fetchDisplacement else fetchWord
  push (← get).pc
  branch offset

def countDown (gate : Status → Bool) (byte : Byte) : Attempt Unit := do
  let second ← fetch
  unless second >>> 3 = 0x17 do throw (.invalidSecondary byte second)
  let r := registerField second
  let offset ← fetchDisplacement
  let p ← get
  if gate p.status then
    setReg r (p.reg r - 1)
    unless p.reg r = 0 do branch offset

end Microcontroller.Instruction
