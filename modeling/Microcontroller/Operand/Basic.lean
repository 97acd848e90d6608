import Microcontroller.Processor.Access
import Microcontroller.Processor.Update

namespace Microcontroller

inductive Place where
  | register (r : Register)
  | memory (page : Byte) (offset : Word)
  | immediate (data : Word)
  deriving DecidableEq

structure Operand where
  place : Place
  size : Size
  extended : Bool
  deriving DecidableEq

namespace Operand

def isRegister (operand : Operand) : Bool := operand.place matches .register _

def isMemory (operand : Operand) : Bool := operand.place matches .memory _ _

def isImmediate (operand : Operand) : Bool := operand.place matches .immediate _

open Routine

def read (operand : Operand) : Routine Long :=
  match operand.place, operand.size with
  | .register r, size => return size.truncate ((← get).reg r |>.setWidth 32)
  | .memory page offset, .byte => return (← readByte (address page offset)).setWidth 32
  | .memory page offset, .word => do
    checkAlignment offset
    return (← readWord (address page offset)).setWidth 32
  | .immediate data, _ => return data.setWidth 32

def write (operand : Operand) (value : Long) : Routine Unit :=
  match operand.place, operand.size with
  | .register r, size => store r value size
  | .memory page offset, .byte => writeByte (address page offset) (value.setWidth 8)
  | .memory page offset, .word => do
    checkAlignment offset
    writeWord (address page offset) (value.setWidth 16)
  | .immediate _, _ => raise .invalidInstruction

end Operand

end Microcontroller
