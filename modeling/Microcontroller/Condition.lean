import Microcontroller.Status

namespace Microcontroller

inductive Condition where
  | always
  | never
  | higher
  | lowerOrSame
  | carryClear
  | carrySet
  | notEqual
  | equal
  | overflowClear
  | overflowSet
  | plus
  | minus
  | greaterOrEqual
  | less
  | greater
  | lessOrEqual
  deriving DecidableEq

namespace Condition

def byCode : Vector Condition 16 :=
  #v[always, never, higher, lowerOrSame, carryClear, carrySet, notEqual, equal,
    overflowClear, overflowSet, plus, minus, greaterOrEqual, less, greater, lessOrEqual]

def ofByte (byte : Byte) : Condition := byCode[(byte.setWidth 4).toNat]

def holds (condition : Condition) (codes : ConditionCodes) : Bool :=
  match condition with
  | always => true
  | never => false
  | higher => !(codes.carry || codes.zero)
  | lowerOrSame => codes.carry || codes.zero
  | carryClear => !codes.carry
  | carrySet => codes.carry
  | notEqual => !codes.zero
  | equal => codes.zero
  | overflowClear => !codes.overflow
  | overflowSet => codes.overflow
  | plus => !codes.negative
  | minus => codes.negative
  | greaterOrEqual => codes.negative == codes.overflow
  | less => codes.negative != codes.overflow
  | greater => !(codes.zero || codes.negative != codes.overflow)
  | lessOrEqual => codes.zero || codes.negative != codes.overflow

def mnemonic : Condition → String
  | always => "BRA"
  | never => "BRN"
  | higher => "BHI"
  | lowerOrSame => "BLS"
  | carryClear => "BCC"
  | carrySet => "BCS"
  | notEqual => "BNE"
  | equal => "BEQ"
  | overflowClear => "BVC"
  | overflowSet => "BVS"
  | plus => "BPL"
  | minus => "BMI"
  | greaterOrEqual => "BGE"
  | less => "BLT"
  | greater => "BGT"
  | lessOrEqual => "BLE"

end Condition

end Microcontroller
