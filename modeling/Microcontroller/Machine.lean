import Microcontroller.Board
import Microcontroller.Instruction.Step

namespace Microcontroller

structure Machine where
  processor : Processor
  board : Board

namespace Machine

def perform {α : Type} (machine : Machine) (routine : Routine α) : α × Machine :=
  let ((value, processor), board) := (routine.run machine.processor).run machine.board
  (value, { processor, board })

def attempt {α : Type} (machine : Machine) (attempt : Attempt α) : Except Trap α × Machine :=
  machine.perform attempt.outcome

def step (machine : Machine) : Except Trap Unit × Machine := machine.attempt Instruction.step

def clock (machine : Machine) (target : BitVec 64) : Machine :=
  { machine with board := machine.board.clock target }

end Machine

end Microcontroller
