import Microcontroller.Operand.Basic

namespace Microcontroller

inductive AddressingMode where
  | direct (r : Register)
  | indirect (r : Register)
  | byteDisplaced (r : Register)
  | wordDisplaced (r : Register)
  | preDecrement (r : Register)
  | postIncrement (r : Register)
  | shortAbsolute
  | absolute
  | immediate
  deriving DecidableEq

namespace AddressingMode

def ofByte (byte : Byte) : AddressingMode :=
  let r := registerField byte
  match (byte >>> 4).toNat with
  | 0x0 => if r = 5 then shortAbsolute else if r = 4 then immediate else direct r
  | 0x1 => if r = 5 then absolute else direct r
  | 0xB => preDecrement r
  | 0xC => postIncrement r
  | 0xD => indirect r
  | 0xE => byteDisplaced r
  | 0xF => wordDisplaced r
  | _ => direct r

def stride (r : Register) (size : Size) : Word :=
  if size = .word ∨ r = Processor.stackPointer then 2 else 1

def placeAt (p : Processor) (r : Register) (offset : Word) : Place :=
  .memory (p.pageOf r) (p.reg r + offset)

open Routine

def resolve (size : Size) : AddressingMode → Routine Place
  | direct r => return .register r
  | indirect r => return placeAt (← get) r 0
  | byteDisplaced r => do
    let offset ← fetchDisplacement
    return placeAt (← get) r offset
  | wordDisplaced r => do
    let offset ← fetchWord
    return placeAt (← get) r offset
  | preDecrement r => do
    modify fun p => p.setReg r (p.reg r - stride r size)
    return placeAt (← get) r 0
  | postIncrement r => do
    let p ← get
    setReg r (p.reg r + stride r size)
    return placeAt p r 0
  | shortAbsolute => return .memory 0 (← fetchShortOffset)
  | absolute => do
    let offset ← fetchWord
    return .memory (← get).dataPage offset
  | immediate => return .immediate (← fetchImmediate size)

end AddressingMode

end Microcontroller
