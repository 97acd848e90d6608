import Microcontroller.Timer.Clock

namespace Microcontroller.Timer

open Interrupt (Request Source)

inductive Block where
  | channel (number : Fin 3)
  | byteTimer
  deriving DecidableEq

namespace Block

def all : List Block := [channel 0, channel 1, channel 2, byteTimer]

@[reducible]
def width : Block → Nat
  | channel _ => 16
  | byteTimer => 8

@[reducible]
def firstFlag : Block → Nat
  | channel _ => 4
  | byteTimer => 5

theorem channels_le : 3 ≤ 7 := by decide

def source (block : Block) (event : TimerEvent) : Source :=
  match block with
  | channel number => .channel (number.castLE channels_le) event
  | byteTimer => .byteTimer event

def requests (block : Block) (events : List TimerEvent) (asserted : Bool) : List Request :=
  events.map fun event => ⟨block.source event, asserted⟩

end Block

def counter (timer : Timer) : (block : Block) → Counter block.width block.firstFlag
  | .channel number => (timer.channel number).counter
  | .byteTimer => timer.byteTimer

def restarts (timer : Timer) : Block → Bool
  | .channel number => (timer.channel number).restarts
  | .byteTimer => timer.byteTimer.restarts

def period (timer : Timer) : Block → Nat
  | .channel number => (timer.channel number).period timer.revision
  | .byteTimer => timer.byteTimer.period timer.revision

def stepBlock (timer : Timer) : Block → Timer × List Request
  | .channel number =>
    let (channel, requests) := (timer.channel number).step number
    (timer.setChannel number channel, requests)
  | .byteTimer =>
    let (byteTimer, requests) := timer.byteTimer.step
    ({ timer with byteTimer }, requests)

inductive Port where
  | channels
  | byteTimer
  deriving DecidableEq

def writePort (timer : Timer) : Port → Address → Byte → Timer × List Request
  | .channels => timer.writeChannel
  | .byteTimer => timer.writeByteTimer

def readPort (timer : Timer) : Port → Address → Byte × Timer
  | .channels => timer.readChannel
  | .byteTimer => timer.readByteTimer

inductive Command where
  | write (port : Port) (a : Address) (data : Byte)
  | read (port : Port) (a : Address)
  | clock (target : BitVec 64)
  deriving DecidableEq

def perform (timer : Timer) : Command → Timer × List Request
  | .write port a data => timer.writePort port a data
  | .read port a => ((timer.readPort port a).2, [])
  | .clock target => ((timer.clock target).1, (timer.clock target).2.toList)

def run (timer : Timer) : List Command → Timer × List Request
  | [] => (timer, [])
  | command :: commands =>
    let (next, made) := timer.perform command
    let (last, more) := next.run commands
    (last, made ++ more)

inductive Move where
  | write (port : Port) (a : Address) (data : Byte)
  | read (port : Port) (a : Address)
  | step (block : Block)
  | elapse
  deriving DecidableEq

def apply (timer : Timer) : Move → Timer × List Request
  | .write port a data => timer.writePort port a data
  | .read port a => ((timer.readPort port a).2, [])
  | .step block => timer.stepBlock block
  | .elapse => ({ timer with cycles := timer.cycles + 1 }, [])

def replay (timer : Timer) : List Move → Timer × List Request
  | [] => (timer, [])
  | move :: moves =>
    let (next, made) := timer.apply move
    let (last, more) := next.replay moves
    (last, made ++ more)

theorem replay_append (timer : Timer) (moves more : List Move) :
    timer.replay (moves ++ more) =
      (((timer.replay moves).1.replay more).1,
        (timer.replay moves).2 ++ ((timer.replay moves).1.replay more).2) := by
  induction moves generalizing timer with
  | nil => rfl
  | cons move moves ih => simp only [List.cons_append, replay, ih, List.append_assoc]

def fires (timer : Timer) (block : Block) : Bool := timer.cycles.toNat % timer.period block == 0

def tickMoves (timer : Timer) : List Move := (Block.all.filter timer.fires).map .step ++ [.elapse]

theorem vector_three {α : Type} (v : Vector α 3) : v = #v[v[0], v[1], v[2]] := by
  apply Vector.ext
  intro i hi
  match i, hi with
  | 0, _ => rfl
  | 1, _ => rfl
  | 2, _ => rfl

theorem replay_tickMoves (timer : Timer) : timer.replay timer.tickMoves = timer.tick := by
  obtain ⟨channels, byteTimer, cycles, latch, revision⟩ := timer
  rw [vector_three channels]
  generalize channels[0] = first, channels[1] = second, channels[2] = third
  change replay _ ((Block.all.filter fun block => decide (cycles.toNat % period _ block = 0)).map .step ++ _) = _
  -- No block changes another's control, so the moves chosen at the start stay the right ones.
  by_cases h₀ : cycles.toNat % first.period revision = 0 <;>
  by_cases h₁ : cycles.toNat % second.period revision = 0 <;>
  by_cases h₂ : cycles.toNat % third.period revision = 0 <;>
  by_cases h₃ : cycles.toNat % byteTimer.period revision = 0 <;>
  simp [period, channel, Block.all, List.filter, tick, tickChannel, Channel.tick, ByteTimer.tick, h₀, h₁, h₂, h₃,
    replay, apply, stepBlock, setChannel]

def catchUpMoves (target : BitVec 64) : (fuel : Nat) → Timer → List Move
  | 0, _ => []
  | fuel + 1, timer =>
    if timer.isBehind target then timer.tickMoves ++ catchUpMoves target fuel timer.tick.1 else []

theorem advance_eq_replay (target : BitVec 64) (fuel : Nat) (timer : Timer) (requests : Array Request) :
    advance target fuel timer requests =
      ((timer.replay (catchUpMoves target fuel timer)).1,
        requests ++ (timer.replay (catchUpMoves target fuel timer)).2) := by
  induction fuel generalizing timer requests with
  | zero => simp [advance, catchUpMoves, replay]
  | succ fuel ih =>
    rw [advance, catchUpMoves]
    split
    · change advance target fuel timer.tick.1 (requests ++ timer.tick.2) = _
      have happend (made more : List Request) : requests ++ made ++ more = requests ++ (made ++ more) := by
        simp [← Array.toList_inj]
      rw [replay_append, replay_tickMoves, ih, happend]
    · simp [replay]

def moves (timer : Timer) : Command → List Move
  | .write port a data => [.write port a data]
  | .read port a => [.read port a]
  | .clock target => catchUpMoves target (timer.ticksDue target) timer

theorem replay_moves (timer : Timer) (command : Command) :
    timer.replay (timer.moves command) = timer.perform command := by
  cases command with
  | write port a data => simp [moves, replay, apply, perform]
  | read port a => simp [moves, replay, apply, perform]
  | clock target => simp [moves, perform, clock, advance_eq_replay]

def history (timer : Timer) : List Command → List Move
  | [] => []
  | command :: commands => timer.moves command ++ (timer.perform command).1.history commands

theorem replay_history (timer : Timer) (commands : List Command) :
    timer.replay (timer.history commands) = timer.run commands := by
  induction commands generalizing timer with
  | nil => rfl
  | cons command commands ih => rw [history, run, replay_append, replay_moves, ih]

end Microcontroller.Timer
