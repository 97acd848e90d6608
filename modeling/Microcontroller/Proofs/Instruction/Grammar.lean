import Microcontroller.Condition
import Microcontroller.Processor.Basic
import Microcontroller.Trap

/-!
Which code bytes are instructions, and the trap that any others cause. A verdict is reached from the code
bytes that an instruction takes, the registers before it and the data bytes that it reads; there is none
while bytes are missing. The code bytes also tell how long an instruction is and whether it goes on behind itself.
-/

namespace Microcontroller.Grammar

/-- First bytes without an instruction. `0x1C` is the other form of a return with arguments. -/
def unassigned : List Byte := [0x09, 0x0B, 0x0F, 0x16, 0x17, 0x1B, 0x1C, 0x1F]

def paired : List Byte := [0x01, 0x06, 0x07, 0x08, 0x11]

def accepts (first second : Byte) : Bool :=
  if first = 0x08 then 0x10 ≤ second ∧ second ≤ 0x1F
  else if first = 0x11 then second = 0x19 ∨ 0xC8 ≤ second ∧ second ≤ 0xDF
  else 0xB8 ≤ second ∧ second ≤ 0xBF

def isMode (byte : Byte) : Bool := byte ∈ ([0x04, 0x05, 0x0C, 0x0D, 0x15, 0x1D] : List Byte) ∨ 0xA0 ≤ byte

inductive Kind where
  | register
  | memory
  | immediate
  deriving DecidableEq

def Kind.ofMode (mode : Byte) : Kind :=
  if mode = 0x04 ∨ mode = 0x0C then immediate
  else if 0xA0 ≤ mode ∧ mode ≤ 0xAF then register
  else memory

def extension (mode : Byte) : Nat :=
  if mode ∈ ([0x04, 0x05, 0x0D] : List Byte) ∨ 0xE0 ≤ mode ∧ mode ≤ 0xEF then 1
  else if mode ∈ ([0x0C, 0x15, 0x1D] : List Byte) ∨ 0xF0 ≤ mode then 2
  else 0

def controlRegisters : List (Size × Register) :=
  [(.word, 0), (.word, 3), (.word, 4), (.word, 5),
    (.byte, 1), (.byte, 3), (.byte, 4), (.byte, 5), (.byte, 7)]

def missingControl? (size : Size) (sub : Register) : Option Trap :=
  if (size, sub) ∈ controlRegisters then none else some (.controlRegister (BitVec.ofNat 8 sub.val) size)

def refusal? (kind : Kind) (size : Size) (escaped : Bool) (index : Byte) (sub : Register) : Option Trap :=
  let invalid := some (Trap.invalidOperand index sub)
  match index.toNat with
  | 0x00 => if kind = .memory ∧ 4 ≤ sub then none else invalid
  | 0x01 => if sub = 0 ∨ sub = 1 ∨ sub = 4 ∨ sub = 5 then none else invalid
  | 0x02 => if kind = .immediate ∨ sub = 7 ∨ sub ≤ 2 ∧ ¬(kind = .register ∧ size = .byte) then invalid else none
  | 0x03 => if kind = .immediate ∨ sub = 7 then invalid else none
  | 0x09 => if kind = .immediate then missingControl? size sub else none
  | 0x0B => if kind = .immediate then missingControl? size sub else none
  | 0x0D => some (.unimplemented 0x0D)
  | 0x0F => if kind = .immediate then invalid else none
  | 0x10 => if escaped then invalid else none
  | 0x11 => missingControl? size sub
  | 0x12 => if escaped ∨ kind = .register ∧ size = .byte then invalid else none
  | 0x13 => missingControl? size sub
  | n => if 0x18 ≤ n then if kind = .immediate then invalid else none else none

def wordBytes (word : Word) : Size → List Byte
  | .byte => [lowByte word]
  | .word => [highByte word, lowByte word]

def number? : Size → List Byte → Option Nat
  | .byte, [byte] => some byte.toNat
  | .word, [high, low] => some (wordOf high low).toNat
  | _, _ => none

def verdict : Option Trap → Except Trap Unit
  | some trap => .error trap
  | none => .ok ()

def operationVerdict? (kind : Kind) (size : Size) (escaped : Bool) (value : Option Nat) (code : Byte) :
    Option (Except Trap Unit) :=
  let index := code >>> 3
  if index = 0x17 then
    value.map fun divisor => verdict (if divisor = 0 then some .divideByZero else none)
  else some (verdict (refusal? kind size escaped index (registerField code)))

def operandValue? (p : Processor) (data : List Byte) (mode : Byte) (bytes : List Byte) : Option Nat :=
  let size := Size.field mode
  match Kind.ofMode mode with
  | .register => number? size (wordBytes (p.reg (registerField mode)) size)
  | .memory => number? size data
  | .immediate => number? size bytes

def escapableVerdict? (verdict? : Bool → Byte → Option (Except Trap Unit)) :
    List Byte → Option (Except Trap Unit)
  | [] => none
  | first :: more => if first = 0 then more.head?.bind (verdict? true) else verdict? false first

def generalVerdict? (p : Processor) (data : List Byte) (mode : Byte) (code : List Byte) :
    Option (Except Trap Unit) :=
  let value := operandValue? p data mode (code.take (extension mode))
  escapableVerdict? (fun escaped => operationVerdict? (Kind.ofMode mode) (Size.field mode) escaped value)
    (code.drop (extension mode))

def verdict? (p : Processor) (data : List Byte) : List Byte → Option (Except Trap Unit)
  | [] => none
  | first :: rest =>
    if first ∈ unassigned then some (verdict (some (.unimplemented first)))
    else if first ∈ paired then
      rest.head?.map fun second =>
        verdict (if accepts first second then none else some (.invalidSecondary first second))
    else if first = 0x14 then
      rest.head?.map fun count =>
        let pointer := p.reg Processor.stackPointer + 2 + count.signExtend 16
        verdict (if pointer.getLsbD 0 then some (.misalignedStack pointer) else none)
    else if isMode first then generalVerdict? p data first rest
    else some (verdict none)

def immediateBytes (code : Byte) : Nat := if code >>> 3 = 0 then if code.getLsbD 0 then 2 else 1 else 0

def operationLength? : List Byte → Option Nat
  | [] => none
  | first :: more =>
    if first = 0 then more.head?.map fun code => 2 + immediateBytes code else some (1 + immediateBytes first)

def fixedLength? (first : Byte) : Option Nat :=
  if first ∈ ([0x00, 0x0A, 0x19, 0x1A] : List Byte) then some 1
  else if first ∈ ([0x02, 0x08, 0x0E, 0x11, 0x12, 0x14] : List Byte) then some 2
  else if first ∈ ([0x01, 0x06, 0x07, 0x10, 0x18, 0x1E] : List Byte) then some 3
  else if first ∈ ([0x03, 0x13] : List Byte) then some 4
  else if 0x20 ≤ first ∧ first ≤ 0x2F then some 2
  else if 0x30 ≤ first ∧ first ≤ 0x3F then some 3
  else if 0x40 ≤ first ∧ first ≤ 0x47 ∨ 0x50 ≤ first ∧ first ≤ 0x57 then some 2
  else if 0x48 ≤ first ∧ first ≤ 0x4F ∨ 0x58 ≤ first ∧ first ≤ 0x5F then some 3
  else if 0x60 ≤ first ∧ first ≤ 0x9F then some 2
  else none

def length? : List Byte → Option Nat
  | [] => none
  | first :: rest =>
    if isMode first then (operationLength? (rest.drop (extension first))).map (1 + extension first + ·)
    else fixedLength? first

def diverting : List Byte := [0x03, 0x0A, 0x0E, 0x10, 0x11, 0x13, 0x14, 0x18, 0x19, 0x1E]

def diverts (p : Processor) : List Byte → Bool
  | [] => false
  | first :: rest =>
    let counts := fun second => p.reg (registerField second) ≠ 0
    if 0x20 ≤ first ∧ first ≤ 0x3F then (Condition.ofByte first).holds p.status.codes
    else if first = 0x01 then rest.head?.any counts
    else if first = 0x06 then p.status.get .zero && rest.head?.any counts
    else if first = 0x07 then !p.status.get .zero && rest.head?.any counts
    else first ∈ diverting

def leavesPage : List Byte → Bool
  | [] => false
  | first :: rest =>
    first ∈ ([0x03, 0x0A, 0x13] : List Byte) ||
      first = 0x11 && rest.head?.any fun second => second = 0x19 ∨ 0xC8 ≤ second ∧ second ≤ 0xCF

def operation? : List Byte → Option (Bool × Byte)
  | [] => none
  | first :: rest =>
    if isMode first then
      match rest.drop (extension first) with
      | [] => none
      | second :: more => if second = 0 then more.head?.map fun code => (true, code) else some (false, second)
    else none

def hasImmediate (code : List Byte) : Bool := code.head?.any fun mode => Kind.ofMode mode = .immediate

def loadsControl (code : List Byte) : Bool :=
  (operation? code).any fun operation : Bool × Byte =>
    let index := operation.2 >>> 3
    index = 0x11 ∨ hasImmediate code ∧ (index = 0x09 ∨ index = 0x0B)

end Microcontroller.Grammar
