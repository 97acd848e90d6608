import Microcontroller.Proofs.Timer.SharedLatch
import Microcontroller.Proofs.Timer.Touches

/-!
A block's view of the timer: its own registers, and the cycle count and the revision that all blocks share. The clock
and the block's registers work on nothing else, except for the latch between the bytes of a wide register.
-/

namespace Microcontroller.Timer

open Interrupt (Request)

namespace Block

@[reducible]
def State : Block → Type
  | channel _ => Channel
  | byteTimer => ByteTimer

def owns : Block → Port → Address → Bool
  | channel number, .channels, a => (locate? a).any fun place => place.1 == number
  | byteTimer, .byteTimer, a => (ByteTimer.Location.ofAddress? a).isSome
  | _, _, _ => false

def concerns (block : Block) : Command → Bool
  | .write port a _ | .read port a => block.owns port a
  | .clock _ => true

def own (block : Block) (requests : List Request) : List Request :=
  requests.filter fun request => TimerEvent.all.any fun event => request.source = block.source event

theorem own_append (block : Block) (requests more : List Request) :
    block.own (requests ++ more) = block.own requests ++ block.own more := List.filter_append _ _

theorem own_requests (block other : Block) (events : List TimerEvent) (asserted : Bool) :
    block.own (other.requests events asserted) = if other = block then other.requests events asserted else [] := by
  split
  next h =>
    subst h
    refine List.filter_eq_self.mpr fun request hrequest => ?_
    obtain ⟨event, -, rfl⟩ := List.mem_map.mp hrequest
    exact List.any_eq_true.mpr ⟨event, Counter.mem_all event, decide_eq_true rfl⟩
  next h =>
    refine List.filter_eq_nil_iff.mpr fun request hrequest hown => ?_
    obtain ⟨event, -, hsource⟩ := List.any_eq_true.mp hown
    exact source_ne_of_mem_requests h events asserted request hrequest event (of_decide_eq_true hsource)

end Block

def state (timer : Timer) : (block : Block) → block.State
  | .channel number => timer.channel number
  | .byteTimer => timer.byteTimer

def view (timer : Timer) (block : Block) : block.State × BitVec 64 × Revision :=
  (timer.state block, timer.cycles, timer.revision)

theorem view_eq {timer other : Timer} {block : Block} :
    timer.view block = other.view block ↔
      timer.state block = other.state block ∧ timer.cycles = other.cycles ∧ timer.revision = other.revision := by
  rw [view, view, Prod.mk.injEq, Prod.mk.injEq]

theorem view_setChannel_of_ne (timer : Timer) {block : Block} {number : Fin 3} (h : .channel number ≠ block)
    (channel : Channel) : (timer.setChannel number channel).view block = timer.view block := by
  cases block with
  | channel other =>
    have hne : other ≠ number := fun hnumber => h (congrArg Block.channel hnumber.symm)
    exact congrArg (·, timer.cycles, timer.revision) ((channel_setChannel _ _ _ _).trans (if_neg hne))
  | byteTimer => rfl

theorem view_setChannel_congr {timer other : Timer} {number : Fin 3} {channel channel' : Channel}
    (h : timer.view (.channel number) = other.view (.channel number)) (hchannel : channel = channel') :
    (timer.setChannel number channel).view (.channel number) = (other.setChannel number channel').view (.channel number) := by
  obtain ⟨-, hcycles, hrevision⟩ := view_eq.mp h
  have hself (timer : Timer) (channel : Channel) : (timer.setChannel number channel).state (.channel number) = channel :=
    (channel_setChannel _ _ _ _).trans (if_pos rfl)
  rw [view_eq, hself, hself]
  exact ⟨hchannel, hcycles, hrevision⟩

section Clock

def tickBlock : (block : Block) → block.State × BitVec 64 × Revision → block.State × List Request
  | .channel number, (channel, cycles, revision) => channel.tick number revision cycles
  | .byteTimer, (byteTimer, cycles, revision) => byteTimer.tick revision cycles

theorem requests_tickBlock (block : Block) (view : block.State × BitVec 64 × Revision) :
    ∃ events, (tickBlock block view).2 = block.requests events true := by
  obtain ⟨state, cycles, revision⟩ := view
  cases block with
  | channel number =>
    change ∃ events, (Channel.tick _ _ _ _).2 = _
    unfold Channel.tick
    split
    · exact ⟨_, rfl⟩
    · exact ⟨[], rfl⟩
  | byteTimer =>
    change ∃ events, (ByteTimer.tick _ _ _).2 = _
    unfold ByteTimer.tick
    split
    · exact ⟨_, rfl⟩
    · exact ⟨[], rfl⟩

theorem own_tickBlock (block other : Block) (view : other.State × BitVec 64 × Revision) :
    block.own (tickBlock other view).2 = if other = block then (tickBlock other view).2 else [] := by
  obtain ⟨events, h⟩ := requests_tickBlock other view
  rw [h, Block.own_requests]

variable (timer : Timer) (block : Block)

theorem view_tick :
    timer.tick.1.view block = ((tickBlock block (timer.view block)).1, timer.cycles + 1, timer.revision) := by
  cases block with
  | channel number =>
    obtain rfl | rfl | rfl : number = 0 ∨ number = 1 ∨ number = 2 := by omega
    all_goals rfl
  | byteTimer => rfl

theorem own_tick : block.own timer.tick.2 = (tickBlock block (timer.view block)).2 := by
  have hmade : timer.tick.2 = Block.all.flatMap fun other => (tickBlock other (timer.view other)).2 := by
    simp only [Block.all, List.flatMap_cons, List.flatMap_nil, List.append_nil, ← List.append_assoc]
    rfl
  rw [hmade]
  simp only [Block.all, List.flatMap_cons, List.flatMap_nil, Block.own_append, own_tickBlock]
  cases block with
  | channel number =>
    obtain rfl | rfl | rfl : number = 0 ∨ number = 1 ∨ number = 2 := by omega
    all_goals simp [Block.own]
  | byteTimer => simp [Block.own]

variable {timer block} {other : Timer}

theorem tick_congr (h : timer.view block = other.view block) :
    timer.tick.1.view block = other.tick.1.view block ∧ block.own timer.tick.2 = block.own other.tick.2 := by
  obtain ⟨-, hcycles, hrevision⟩ := view_eq.mp h
  rw [view_tick, view_tick, own_tick, own_tick, h, hcycles, hrevision]
  exact ⟨rfl, rfl⟩

theorem advance_congr (target : BitVec 64) (fuel : Nat) {requests requests' : Array Request}
    (h : timer.view block = other.view block) (hrequests : block.own requests.toList = block.own requests'.toList) :
    let after := advance target fuel timer requests
    let after' := advance target fuel other requests'
    after.1.view block = after'.1.view block ∧ block.own after.2.toList = block.own after'.2.toList := by
  induction fuel generalizing timer other requests requests' with
  | zero => exact ⟨h, hrequests⟩
  | succ fuel ih =>
    have hbehind : timer.isBehind target = other.isBehind target := by
      rw [isBehind, (view_eq.mp h).2.1, isBehind]
    have hsucc (timer : Timer) (requests : Array Request) : advance target (fuel + 1) timer requests =
        if timer.isBehind target then advance target fuel timer.tick.1 (requests ++ timer.tick.2) else (timer, requests) :=
      rfl
    rw [hsucc, hsucc, hbehind]
    split
    · obtain ⟨hview, hmade⟩ := tick_congr h
      apply ih hview
      simp only [Array.toList_appendList, Block.own_append, hrequests, hmade]
    · exact ⟨h, hrequests⟩

theorem clock_congr (target : BitVec 64) (h : timer.view block = other.view block) :
    (timer.perform (.clock target)).1.view block = (other.perform (.clock target)).1.view block ∧
      block.own (timer.perform (.clock target)).2 = block.own (other.perform (.clock target)).2 := by
  have hdue : timer.ticksDue target = other.ticksDue target := by
    rw [ticksDue, (view_eq.mp h).2.1, ticksDue]
  have hadvance := advance_congr target (timer.ticksDue target) h (rfl : block.own (#[] : Array Request).toList = _)
  simp only [perform, clock]
  rw [← hdue]
  exact hadvance

end Clock

end Microcontroller.Timer
