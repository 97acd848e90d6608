import Microcontroller.Operation.Arithmetic
import Microcontroller.Operation.Bit
import Microcontroller.Operation.Logic
import Microcontroller.Operation.Product
import Microcontroller.Operation.Shift
import Microcontroller.Operation.Transfer
import Microcontroller.Operation.Unary

namespace Microcontroller

inductive Operation where
  | moveImmediate
  | addQuick
  | unary
  | shift
  | add
  | addSigned
  | subtract
  | subtractSigned
  | or
  | setBit
  | and
  | clearBit
  | exclusiveOr
  | unassigned
  | compare
  | testBit
  | move
  | loadControl
  | storeControl
  | addExtended
  | multiply
  | subtractExtended
  | divide
  | numberedBit (change : BitChange)
  deriving DecidableEq

namespace Operation

structure Entry where
  mnemonic : String
  operation : Operation
  deriving DecidableEq

def table : Vector Entry 32 :=
  #v[⟨"MOV:G/CMP:G #imm", .moveImmediate⟩,
    ⟨"ADDQ", .addQuick⟩,
    ⟨"CLR/TST/EXT/SWAP/NOT/NEG", .unary⟩,
    ⟨"SHIFT/ROTATE", .shift⟩,
    ⟨"ADD", .add⟩,
    ⟨"ADDS", .addSigned⟩,
    ⟨"SUB", .subtract⟩,
    ⟨"SUBS", .subtractSigned⟩,
    ⟨"OR", .or⟩,
    ⟨"BSET/ORC", .setBit⟩,
    ⟨"AND", .and⟩,
    ⟨"BCLR/ANDC", .clearBit⟩,
    ⟨"XOR", .exclusiveOr⟩,
    ⟨"UNIMPL", .unassigned⟩,
    ⟨"CMP", .compare⟩,
    ⟨"BTST", .testBit⟩,
    ⟨"MOV:G", .move⟩,
    ⟨"LDC", .loadControl⟩,
    ⟨"MOV:G/XCH", .move⟩,
    ⟨"STC", .storeControl⟩,
    ⟨"ADDX", .addExtended⟩,
    ⟨"MULXU", .multiply⟩,
    ⟨"SUBX", .subtractExtended⟩,
    ⟨"DIVXU", .divide⟩,
    ⟨"BSET", .numberedBit .set⟩,
    ⟨"BSET", .numberedBit .set⟩,
    ⟨"BCLR", .numberedBit .clear⟩,
    ⟨"BCLR", .numberedBit .clear⟩,
    ⟨"BNOT", .numberedBit .invert⟩,
    ⟨"BNOT", .numberedBit .invert⟩,
    ⟨"BTST", .numberedBit .test⟩,
    ⟨"BTST", .numberedBit .test⟩]

def ofSlot (slot : Fin 32) : Operation := table[slot].operation

def execute (operation : Operation) (operand : Operand) (index : Byte) (sub : Register) : Attempt Unit :=
  match operation with
  | .moveImmediate => operand.moveImmediate index sub
  | .addQuick => operand.addQuick index sub
  | .unary => operand.unary index sub
  | .shift => operand.shift index sub
  | .add => operand.accumulate Arithmetic.add sub
  | .addSigned => operand.adjust (· + ·) sub
  | .subtract => operand.accumulate Arithmetic.subtract sub
  | .subtractSigned => operand.adjust (· - ·) sub
  | .or => operand.combineWhole (· ||| ·) sub
  | .setBit => operand.setBit sub
  | .and => operand.conjoin sub
  | .clearBit => operand.clearBit sub
  | .exclusiveOr => operand.combineWhole (· ^^^ ·) sub
  | .unassigned => throw (.unimplemented index)
  | .compare => operand.compare sub
  | .testBit => operand.testBit index sub
  | .move => operand.move index sub
  | .loadControl => operand.loadControl sub
  | .storeControl => operand.storeControl sub
  | .addExtended => operand.accumulateExtended Arithmetic.add sub
  | .multiply => operand.multiply sub
  | .subtractExtended => operand.accumulateExtended Arithmetic.subtract sub
  | .divide => operand.divide sub
  | .numberedBit change => operand.numberedBit change index sub

end Operation

end Microcontroller
