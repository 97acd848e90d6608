import Microcontroller.Processor.Routine

/-!
Control registers. Reading and writing decode the index alike, so they accept the same pairs of width and
index. A page register fills both halves of a word read and takes the low byte of what is written.
-/

namespace Microcontroller

inductive ControlRegister where
  | status
  | conditionCodes
  | base
  | extendedPage
  | dataPage
  | stackPage
  deriving DecidableEq

namespace ControlRegister

def ofIndex? (size : Size) (index : Byte) : Option ControlRegister :=
  match size, index.toNat with
  | .word, 0 => some status
  | .byte, 1 => some conditionCodes
  | _, 3 => some base
  | _, 4 => some extendedPage
  | _, 5 => some dataPage
  | .byte, 7 => some stackPage
  | _, _ => none

def pageValue (page : Byte) : Size → Long
  | .byte => page.setWidth 32
  | .word => (page ++ page).setWidth 32

def read (register : ControlRegister) (size : Size) (p : Processor) : Long :=
  match register with
  | status => (p.status.bits &&& Status.existing).setWidth 32
  | conditionCodes => (p.status.bits &&& Status.existing &&& 0xFF).setWidth 32
  | base => pageValue p.base size
  | extendedPage => pageValue p.extendedPage size
  | dataPage => pageValue p.dataPage size
  | stackPage => pageValue p.stackPage size

def write (register : ControlRegister) (data : Long) (p : Processor) : Processor :=
  match register with
  | status => { p with status := Status.ofWord (data.setWidth 16) }
  | conditionCodes => { p with status := Status.ofWord (withLow p.status.bits (data.setWidth 8)) }
  | base => { p with base := data.setWidth 8 }
  | extendedPage => { p with extendedPage := data.setWidth 8 }
  | dataPage => { p with dataPage := data.setWidth 8 }
  | stackPage => { p with stackPage := data.setWidth 8 }

end ControlRegister

namespace Attempt

def controlRegister (index : Byte) (size : Size) : Attempt ControlRegister :=
  match ControlRegister.ofIndex? size index with
  | some register => pure register
  | none => throw (.controlRegister index size)

def readControl (index : Byte) (size : Size) : Attempt Long := do
  let register ← controlRegister index size
  return register.read size (← get)

def writeControl (index : Byte) (size : Size) (data : Long) : Attempt Unit := do
  let register ← controlRegister index size
  modify (register.write data)

end Attempt

end Microcontroller
