import Microcontroller.Interrupt.Signal

/-!
What the timer blocks have in common: a counter with two compare values, and a status byte whose three event
flags can be cleared only after they were read as set. The flags start at bit `firstFlag`, and the control
byte enables their requests at the same positions.
-/

namespace Microcontroller

def TimerEvent.rank : TimerEvent → Nat
  | .overflow => 0
  | .compareA => 1
  | .compareB => 2

structure Counter (width firstFlag : Nat) where
  control : Byte
  status : Byte
  /-- The flags that have been read as set since they were last cleared. -/
  seen : Byte
  count : BitVec width
  compareA : BitVec width
  compareB : BitVec width
  deriving DecidableEq

namespace Counter

variable {width firstFlag : Nat}

def new : Counter width firstFlag := ⟨0, 0, 0, 0, 0, 0⟩

def flags (firstFlag : Nat) (events : List TimerEvent) : Byte :=
  events.foldr (fun event mask => BitVec.twoPow 8 (firstFlag + event.rank) ||| mask) 0

def isSet (counter : Counter width firstFlag) (event : TimerEvent) : Bool :=
  counter.status.getLsbD (firstFlag + event.rank)

def isSeen (counter : Counter width firstFlag) (event : TimerEvent) : Bool :=
  counter.seen.getLsbD (firstFlag + event.rank)

def isEnabled (counter : Counter width firstFlag) (event : TimerEvent) : Bool :=
  counter.control.getLsbD (firstFlag + event.rank)

def readStatus (counter : Counter width firstFlag) : Byte × Counter width firstFlag :=
  (counter.status,
    { counter with seen := counter.seen ||| counter.status &&& flags firstFlag TimerEvent.all })

def acknowledged (counter : Counter width firstFlag) (data : Byte) : List TimerEvent :=
  TimerEvent.all.filter fun event => !data.getLsbD (firstFlag + event.rank) && counter.isSeen event

def writeStatus (counter : Counter width firstFlag) (data : Byte) :
    Counter width firstFlag × List TimerEvent :=
  let cleared := counter.acknowledged data
  let kept := ~~~flags firstFlag cleared
  ({ counter with
      status := (counter.status &&& 0xF0 ||| data &&& 0x0F) &&& kept
      seen := counter.seen &&& kept }, cleared)

/-- What the next step brings about. Comparisons look at the count before the step. -/
def occurs (counter : Counter width firstFlag) (restart : Bool) : TimerEvent → Bool
  | .overflow => !restart && counter.count == BitVec.allOnes width
  | .compareA => counter.count == counter.compareA
  | .compareB => counter.count == counter.compareB

/-- Counts up or restarts at zero. The result names the events whose requests are enabled and whose flags
are set afterwards, old flags included. -/
def step (counter : Counter width firstFlag) (restart : Bool) :
    Counter width firstFlag × List TimerEvent :=
  let next : Counter width firstFlag :=
    { counter with
      count := if restart then 0 else counter.count + 1
      status := counter.status ||| flags firstFlag (TimerEvent.all.filter (counter.occurs restart)) }
  (next, TimerEvent.all.filter fun event => next.isEnabled event && next.isSet event)

end Counter

end Microcontroller
