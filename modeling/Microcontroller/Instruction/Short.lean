import Microcontroller.Processor.Access
import Microcontroller.Processor.Update

namespace Microcontroller.Instruction

open Routine Processor

def compareImmediate (byte : Byte) : Routine Unit := do
  let size := Size.field byte
  let data ← fetchImmediate size
  let value := (← get).long (registerField byte)
  let _ ← conclude (Arithmetic.subtract value (data.setWidth 32) false size)

def moveByte (byte : Byte) : Routine Unit := do
  let data ← fetch
  store (registerField byte) (data.setWidth 32) .byte
  report (data.setWidth 32) .byte

def moveWord (byte : Byte) : Routine Unit := do
  let data ← fetchWord
  setReg (registerField byte) data
  report (data.setWidth 32) .word

def loadShort (byte : Byte) : Routine Unit := do
  let offset ← fetchShortOffset
  match Size.field byte with
  | .byte =>
    let data ← readByte (address 0 offset)
    store (registerField byte) (data.setWidth 32) .byte
    report (data.setWidth 32) .byte
  | .word =>
    checkAlignment offset
    let data ← readWord (address 0 offset)
    setReg (registerField byte) data
    report (data.setWidth 32) .word

def storeShort (byte : Byte) : Routine Unit := do
  let offset ← fetchShortOffset
  let data := (← get).reg (registerField byte)
  match Size.field byte with
  | .byte =>
    writeByte (address 0 offset) (lowByte data)
    report (data.setWidth 32) .byte
  | .word =>
    checkAlignment offset
    writeWord (address 0 offset) data
    report (data.setWidth 32) .word

/-- Loads and stores at a displacement from the frame pointer. The width bit works the other way round: with
it clear, a byte load fills the register and a store writes a word, both with word flags; with it set, a
word load is merged into the register's high byte and a store writes a byte, both with byte flags. Odd
addresses raise nothing. -/
def moveFrame (byte : Byte) : Routine Unit := do
  let r := registerField byte
  let offset ← fetchDisplacement
  let p ← get
  let place := address p.stackPage (p.reg framePointer + offset)
  match byte.getLsbD 4, byte.getLsbD 3 with
  | false, false =>
    let data ← readByte place
    setReg r (data.setWidth 16)
    report (data.setWidth 32) .word
  | false, true =>
    let data ← readWord place
    setReg r (p.reg r &&& 0xFF00 ||| data)
    report (data.setWidth 32) .byte
  | true, false =>
    writeWord place (p.reg r)
    report (p.long r) .word
  | true, true =>
    writeByte place (lowByte (p.reg r))
    report (p.long r) .byte

end Microcontroller.Instruction
