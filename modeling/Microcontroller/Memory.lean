import Microcontroller.Dialogue

namespace Microcontroller

def Memory : Type := Address → Byte

namespace Memory

def filled (byte : Byte) : Memory := fun _ => byte

def read (memory : Memory) (a : Address) : Byte := memory a

def write (memory : Memory) (a : Address) (byte : Byte) : Memory :=
  fun b => if b = a then byte else memory b

def store (memory : Memory) (start : Address) (bytes : Array Byte) : Memory :=
  fun a => bytes.getD (a - start).toNat (memory a)

instance : Host Memory where
  read memory a := (memory.read a, memory)
  write := write
  notify memory _ := memory

end Memory

end Microcontroller
