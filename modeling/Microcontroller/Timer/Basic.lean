import Microcontroller.Timer.ByteTimer
import Microcontroller.Timer.Channel

/-!
The timer: three free-running channels and an 8-bit timer on one cycle count. The two bytes of a wide
register go through a latch that the channels share: a high-byte write waits in it for the low byte, and a
high-byte read leaves the low byte in it.
-/

namespace Microcontroller

structure Timer where
  channels : Vector Channel 3
  byteTimer : ByteTimer
  /-- Cycles so far, each two processor cycles long. -/
  cycles : BitVec 64
  latch : Byte
  revision : Revision
  deriving DecidableEq

namespace Timer

open Interrupt (Request)

def new (revision : Revision) : Timer where
  channels := Vector.replicate 3 Channel.new
  byteTimer := Counter.new
  cycles := 0
  latch := 0
  revision := revision

inductive Location where
  | control
  | status
  | high (register : WideRegister)
  | low (register : WideRegister)
  deriving DecidableEq

def Location.ofOffset? (offset : BitVec 4) : Option Location :=
  match offset.toNat with
  | 0 => some control
  | 1 => some status
  | 2 => some (high .count)
  | 3 => some (low .count)
  | 4 => some (high .compareA)
  | 5 => some (low .compareA)
  | 6 => some (high .compareB)
  | 7 => some (low .compareB)
  | 8 => some (high .capture)
  | 9 => some (low .capture)
  | _ => none

def locate? (a : Address) : Option (Fin 3 × Location) :=
  let window := (a >>> 4).toNat
  if h : 1 ≤ window ∧ window ≤ 3 then
    (Location.ofOffset? (a.setWidth 4)).map fun location => (⟨window - 1, by omega⟩, location)
  else none

instance neZero_channels : @NeZero Nat Zero.ofOfNat0 3 := ⟨Nat.succ_ne_zero 2⟩

def channel (timer : Timer) (number : Fin 3) : Channel := timer.channels[number]

def setChannel (timer : Timer) (number : Fin 3) (channel : Channel) : Timer :=
  { timer with channels := timer.channels.set number channel }

def setCounter (timer : Timer) (number : Fin 3) (counter : Counter 16 4) : Timer :=
  timer.setChannel number { timer.channel number with counter }

def tickChannel (timer : Timer) (number : Fin 3) : Channel × List Request :=
  (timer.channel number).tick number timer.revision timer.cycles

def writeChannel (timer : Timer) (a : Address) (data : Byte) : Timer × List Request :=
  match locate? a with
  | some (number, .control) =>
    (timer.setCounter number { (timer.channel number).counter with control := data }, [])
  | some (number, .status) =>
    let (counter, cleared) := (timer.channel number).counter.writeStatus data
    (timer.setCounter number counter, Channel.requests number cleared false)
  | some (_, .high _) => ({ timer with latch := data }, [])
  | some (number, .low register) =>
    (timer.setChannel number ((timer.channel number).set (wordOf timer.latch data) register), [])
  | none => (timer, [])

def readChannel (timer : Timer) (a : Address) : Byte × Timer :=
  match locate? a with
  | some (number, .control) => ((timer.channel number).counter.control, timer)
  | some (number, .status) =>
    let (status, counter) := (timer.channel number).counter.readStatus
    (status, timer.setCounter number counter)
  | some (number, .high register) =>
    let value := (timer.channel number).get register
    (highByte value, { timer with latch := lowByte value })
  | some (_, .low _) => (timer.latch, timer)
  | none => (0xFF, timer)

def writeByteTimer (timer : Timer) (a : Address) (data : Byte) : Timer × List Request :=
  let (byteTimer, requests) := timer.byteTimer.write a data
  ({ timer with byteTimer }, requests)

def readByteTimer (timer : Timer) (a : Address) : Byte × Timer :=
  let (byte, byteTimer) := timer.byteTimer.read a
  (byte, { timer with byteTimer })

def write (timer : Timer) (a : Address) (data : Byte) : Timer × List Request :=
  if a < 0x50 then timer.writeChannel a data else timer.writeByteTimer a data

def read (timer : Timer) (a : Address) : Byte × Timer :=
  if a < 0x50 then timer.readChannel a else timer.readByteTimer a

end Timer

end Microcontroller
