import Microcontroller.Timer.Basic

namespace Microcontroller.Timer

open Interrupt (Request)

def tick (timer : Timer) : Timer × List Request :=
  let (first, r₀) := timer.tickChannel 0
  let (second, r₁) := timer.tickChannel 1
  let (third, r₂) := timer.tickChannel 2
  let (byteTimer, r₃) := timer.byteTimer.tick timer.revision timer.cycles
  ({ timer with channels := #v[first, second, third], byteTimer, cycles := timer.cycles + 1 },
    r₀ ++ r₁ ++ r₂ ++ r₃)

/-- Whether the target is still ahead; the product wraps at 64 bits. -/
def isBehind (timer : Timer) (target : BitVec 64) : Bool := timer.cycles * 2 < target

def ticksDue (timer : Timer) (target : BitVec 64) : Nat :=
  (target.toNat + 1) / 2 - timer.cycles.toNat

def advance (target : BitVec 64) :
    (fuel : Nat) → Timer → (requests : Array Request) → Timer × Array Request
  | 0, timer, requests => (timer, requests)
  | fuel + 1, timer, requests =>
    if timer.isBehind target then
      let (next, made) := timer.tick
      advance target fuel next (requests ++ made)
    else (timer, requests)

def clock (timer : Timer) (target : BitVec 64) : Timer × Array Request :=
  advance target (timer.ticksDue target) timer #[]

end Microcontroller.Timer
