import Microcontroller.Trap

namespace Microcontroller

inductive TimerEvent where
  | overflow
  | compareA
  | compareB
  deriving DecidableEq

namespace TimerEvent

def all : List TimerEvent := [overflow, compareA, compareB]

end TimerEvent

namespace Interrupt

inductive Source where
  | channel (number : Fin 7) (event : TimerEvent)
  | byteTimer (event : TimerEvent)
  deriving DecidableEq

/-- Each channel owns four lines from `3 + 4 * number` on, the first of them for input capture; the 8-bit
timer follows three channels. -/
def Source.line : Source → Fin 32
  | channel number .compareA => ⟨3 + 4 * number.val + 1, by omega⟩
  | channel number .compareB => ⟨3 + 4 * number.val + 2, by omega⟩
  | channel number .overflow => ⟨3 + 4 * number.val + 3, by omega⟩
  | byteTimer .compareA => 15
  | byteTimer .compareB => 16
  | byteTimer .overflow => 17

structure Request where
  source : Source
  asserted : Bool
  deriving DecidableEq

inductive Fault where
  | addressError
  | invalidInstruction
  deriving DecidableEq

inductive Notice where
  | fault (fault : Fault)
  | softwareTrap (vector : BitVec 4)
  | errorTrap (trap : Trap)
  deriving DecidableEq

inductive Signal where
  | request (request : Request)
  | notice (notice : Notice)
  deriving DecidableEq

end Interrupt

end Microcontroller
