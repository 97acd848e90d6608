import Microcontroller.Revision
import Microcontroller.Timer.Counter

/-!
The 8-bit timer. Bits 3 and 4 of its control byte choose the match that restarts the count; with
both or neither set none does.
-/

namespace Microcontroller

abbrev ByteTimer : Type := Counter 8 5

namespace ByteTimer

open Interrupt (Request Source)

inductive Location where
  | control
  | status
  | compareA
  | compareB
  | count
  deriving DecidableEq

def Location.ofAddress? (a : Address) : Option Location :=
  match a.toNat with
  | 0x50 => some control
  | 0x51 => some status
  | 0x52 => some compareA
  | 0x53 => some compareB
  | 0x54 => some count
  | _ => none

def periods : Revision → Vector Nat 8
  | .generic => #v[1, 8, 64, 1024, 1, 2, 2, 2]
  | .mk1 => #v[1, 8, 64, 1024, 1, 4, 4, 4]

def period (timer : ByteTimer) (revision : Revision) : Nat :=
  (periods revision)[(timer.control.setWidth 3).toNat]

def restarts (timer : ByteTimer) : Bool :=
  match timer.control.getLsbD 3, timer.control.getLsbD 4 with
  | true, false => timer.count == timer.compareA
  | false, true => timer.count == timer.compareB
  | _, _ => false

def requests (events : List TimerEvent) (asserted : Bool) : List Request :=
  events.map fun event => ⟨.byteTimer event, asserted⟩

def step (timer : ByteTimer) : ByteTimer × List Request :=
  let (timer, events) := Counter.step timer timer.restarts
  (timer, requests events true)

def tick (timer : ByteTimer) (revision : Revision) (cycle : BitVec 64) : ByteTimer × List Request :=
  if cycle.toNat % timer.period revision = 0 then timer.step else (timer, [])

def write (timer : ByteTimer) (a : Address) (data : Byte) : ByteTimer × List Request :=
  match Location.ofAddress? a with
  | some .control => ({ timer with control := data }, [])
  | some .status =>
    let (timer, cleared) := Counter.writeStatus timer data
    (timer, requests cleared false)
  | some .compareA => ({ timer with compareA := data }, [])
  | some .compareB => ({ timer with compareB := data }, [])
  | some .count => ({ timer with count := data }, [])
  | none => (timer, [])

def read (timer : ByteTimer) (a : Address) : Byte × ByteTimer :=
  match Location.ofAddress? a with
  | some .control => (timer.control, timer)
  | some .status => Counter.readStatus timer
  | some .compareA => (timer.compareA, timer)
  | some .compareB => (timer.compareB, timer)
  | some .count => (timer.count, timer)
  | none => (0xFF, timer)

end ByteTimer

end Microcontroller
