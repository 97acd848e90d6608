import Microcontroller.Revision
import Microcontroller.Timer.Counter

namespace Microcontroller

structure Channel where
  counter : Counter 16 4
  capture : Word
  deriving DecidableEq

inductive WideRegister where
  | count
  | compareA
  | compareB
  | capture
  deriving DecidableEq

namespace Channel

open Interrupt (Request Source)

def new : Channel := ⟨Counter.new, 0⟩

def get (channel : Channel) : WideRegister → Word
  | .count => channel.counter.count
  | .compareA => channel.counter.compareA
  | .compareB => channel.counter.compareB
  | .capture => channel.capture

def set (channel : Channel) (value : Word) : WideRegister → Channel
  | .count => { channel with counter := { channel.counter with count := value } }
  | .compareA => { channel with counter := { channel.counter with compareA := value } }
  | .compareB => { channel with counter := { channel.counter with compareB := value } }
  | .capture => { channel with capture := value }

def periods : Revision → Vector Nat 4
  | .generic => #v[4, 8, 32, 2]
  | .mk1 => #v[4, 8, 32, 4]

def period (channel : Channel) (revision : Revision) : Nat :=
  (periods revision)[(channel.counter.control.setWidth 2).toNat]

def restarts (channel : Channel) : Bool :=
  channel.counter.status.getLsbD 0 && channel.counter.count == channel.counter.compareA

def requests (number : Fin 3) (events : List TimerEvent) (asserted : Bool) : List Request :=
  events.map fun event => ⟨.channel (number.castLE (by decide)) event, asserted⟩

def step (channel : Channel) (number : Fin 3) : Channel × List Request :=
  let (counter, events) := channel.counter.step channel.restarts
  ({ channel with counter }, requests number events true)

def tick (channel : Channel) (number : Fin 3) (revision : Revision) (cycle : BitVec 64) :
    Channel × List Request :=
  if cycle.toNat % channel.period revision = 0 then channel.step number else (channel, [])

end Channel

end Microcontroller
