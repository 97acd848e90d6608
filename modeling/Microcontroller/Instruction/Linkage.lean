import Microcontroller.Instruction.Branch

namespace Microcontroller.Instruction

open Routine Processor

def call : Routine Unit := do
  let target ← fetchWord
  push (← get).pc
  jump target

def callPage : Routine Unit := do
  let page ← fetch
  let target ← fetchWord
  let p ← get
  push p.pc
  push (p.codePage.setWidth 16)
  jumpToPage page target

def jumpPage : Routine Unit := do
  let page ← fetch
  let target ← fetchWord
  jumpToPage page target

def returnFromCall : Routine Unit := do
  let target ← pop
  jump target

def returnToPage : Routine Unit := do
  let page ← pop
  let target ← pop
  jumpToPage (lowByte page) target

def returnFromException : Routine Unit := do
  let status ← pop
  updateStatus fun _ => Status.ofWord status
  returnToPage
  holdInterrupts

/-- Returns and drops arguments from the stack. Only the byte form exists, but the other one has popped its
return address when it traps. -/
def returnAndDrop (byte : Byte) : Attempt Unit := do
  let count ← fetchDisplacement
  returnFromCall
  unless byte = 0x14 do throw (.unimplemented byte)
  let pointer := (← get).reg stackPointer + count
  setReg stackPointer pointer
  if pointer.getLsbD 0 then throw (.misalignedStack pointer)

/-- The target of a jump is read after the pushes that a call makes. -/
def jumpIndirect (byte : Byte) : Attempt Unit := do
  let second ← fetch
  let r := registerField second
  if second = 0x19 then returnToPage
  else
    match (second >>> 3).toNat with
    | 0x19 => do
      let p ← get
      push p.pc
      push (p.codePage.setWidth 16)
      let p ← get
      jumpToPage (lowByte (p.reg (pairHigh r))) (p.reg (pairLow r))
    | 0x1A => do jump ((← get).reg r)
    | 0x1B => do
      push (← get).pc
      jump ((← get).reg r)
    | _ => throw (.invalidSecondary byte second)

def jumpGroup (byte : Byte) : Attempt Unit :=
  match byte.toNat with
  | 0x01 => countDown (fun _ => true) byte
  | 0x06 => countDown (·.get .zero) byte
  | 0x07 => countDown (!·.get .zero) byte
  | 0x10 => do jump (← fetchWord)
  | 0x11 => jumpIndirect byte
  | _ => throw (.unimplemented byte)

def registerList (list : Byte) : List Register := (List.finRange 8).filter fun r => list.getLsbD r

/-- A word popped for the stack pointer is dropped. -/
def loadMultiple : Routine Unit := do
  let list ← fetch
  (registerList list).forM fun r => do
    let value ← pop
    unless r = stackPointer do setReg r value

/-- The stack pointer is pushed as it is after its own push. -/
def storeMultiple : Routine Unit := do
  let list ← fetch
  (registerList list).reverse.forM fun r => do
    let value := (← get).reg r
    push (if r = stackPointer then value - 2 else value)

def softwareTrap (byte : Byte) : Attempt Unit := do
  let second ← fetch
  unless second &&& 0xF0 = 0x10 do throw (.invalidSecondary byte second)
  notify (.softwareTrap (second.setWidth 4))

def sleep : Routine Unit := modify fun p => { p with asleep := true }

end Microcontroller.Instruction
