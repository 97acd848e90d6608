import Microcontroller.Arithmetic

/-!
The status register. The low nibble holds the condition codes, bits 8 to 10 the interrupt mask level and
bit 15 the trace bit; the remaining bits do not exist and are dropped when the register is loaded whole.
-/

namespace Microcontroller

inductive Flag where
  | carry
  | overflow
  | zero
  | negative
  deriving DecidableEq

def Flag.mask : Flag → Word
  | .carry => 0x0001
  | .overflow => 0x0002
  | .zero => 0x0004
  | .negative => 0x0008

structure Status where
  bits : Word
  deriving DecidableEq

namespace Status

def existing : Word := 0x870F

def ofWord (word : Word) : Status := ⟨word &&& existing⟩

def contains (s : Status) (mask : Word) : Bool := s.bits &&& mask == mask

def assign (s : Status) (mask : Word) (on : Bool) : Status :=
  ⟨if on then s.bits ||| mask else s.bits &&& ~~~mask⟩

def get (s : Status) (flag : Flag) : Bool := s.contains flag.mask

def set (s : Status) (flag : Flag) (on : Bool) : Status := s.assign flag.mask on

def interruptMask (s : Status) : BitVec 3 := s.bits.extractLsb' 8 3

def codes (s : Status) : ConditionCodes where
  negative := s.get .negative
  zero := s.get .zero
  overflow := s.get .overflow
  carry := s.get .carry

def withCodes (s : Status) (codes : ConditionCodes) : Status :=
  (((s.set .negative codes.negative).set .zero codes.zero).set .overflow codes.overflow).set
    .carry codes.carry

def withResult (s : Status) (value : Long) (size : Size) : Status :=
  ((s.set .negative (size.isNegative value)).set .zero (size.isZero value)).set .overflow false

end Status

end Microcontroller
