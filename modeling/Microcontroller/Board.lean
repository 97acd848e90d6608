import Microcontroller.Interrupt.Lines
import Microcontroller.Memory
import Microcontroller.Timer.Clock

/-!
A host with memory, a timer and interrupt lines. The timer may take the place of memory at `0xFF00` to
`0xFF7F`. The journal keeps what the processor and the timer did, in order.
-/

namespace Microcontroller

open Interrupt

inductive Event where
  | read (address : Address) (byte : Byte)
  | write (address : Address) (byte : Byte)
  | signal (signal : Signal)
  deriving DecidableEq

structure Board where
  memory : Memory
  timer : Timer
  lines : Lines
  timerMapped : Bool
  journal : Array Event

namespace Board

def new (revision : Revision) (memory : Memory) (timerMapped : Bool) : Board where
  memory := memory
  timer := Timer.new revision
  lines := Lines.new
  timerMapped := timerMapped
  journal := #[]

def timerRegister? (board : Board) (a : Address) : Option Address :=
  if board.timerMapped ∧ 0xFF00 ≤ a ∧ a ≤ 0xFF7F then some (a - 0xFF00) else none

def log (board : Board) (event : Event) : Board := { board with journal := board.journal.push event }

def receive (board : Board) (signal : Signal) : Board :=
  { board.log (.signal signal) with lines := board.lines.receive signal }

def read (board : Board) (a : Address) : Byte × Board :=
  match board.timerRegister? a with
  | some register =>
    let (byte, timer) := board.timer.read register
    (byte, { board with timer }.log (.read a byte))
  | none => (board.memory.read a, board.log (.read a (board.memory.read a)))

/-- A write is journalled before the requests that it causes. -/
def write (board : Board) (a : Address) (byte : Byte) : Board :=
  match board.timerRegister? a with
  | some register =>
    let (timer, requests) := board.timer.write register byte
    requests.foldl (fun board request => board.receive (.request request))
      ({ board with timer }.log (.write a byte))
  | none => { board.log (.write a byte) with memory := board.memory.write a byte }

def clock (board : Board) (target : BitVec 64) : Board :=
  let (timer, requests) := board.timer.clock target
  requests.foldl (fun board request => board.receive (.request request)) { board with timer }

instance : Host Board where
  read := read
  write := write
  notify board notice := board.receive (.notice notice)

end Board

end Microcontroller
