import Microcontroller.Proofs.Timer.CounterSteps
import Microcontroller.Proofs.Timer.Touches

namespace Microcontroller.Timer

open Interrupt (Request Source)

def Block.clearing : (block : Block) → Counter block.width block.firstFlag → Option Comparator
  | .channel _, counter => if counter.status.getLsbD 0 then some .a else none
  | .byteTimer, counter =>
    if counter.control &&& 0x18 = 0x08 then some .a
    else if counter.control &&& 0x18 = 0x10 then some .b
    else none

theorem clearing_bits (control : Byte) :
    (control &&& 0x18 = 0x08 ↔ control.getLsbD 3 = true ∧ control.getLsbD 4 = false) ∧
      (control &&& 0x18 = 0x10 ↔ control.getLsbD 3 = false ∧ control.getLsbD 4 = true) := by
  revert control
  decide

theorem restarts_eq (timer : Timer) (block : Block) :
    timer.restarts block = (timer.counter block).clears (block.clearing (timer.counter block)) := by
  cases block with
  | channel number =>
    let counter := (timer.channel number).counter
    change (counter.status.getLsbD 0 && _) = counter.clears (if counter.status.getLsbD 0 then some .a else none)
    cases counter.status.getLsbD 0 <;> rfl
  | byteTimer =>
    let counter := timer.byteTimer
    obtain ⟨ha, hb⟩ := clearing_bits counter.control
    change counter.restarts = Counter.clears counter (Block.byteTimer.clearing counter)
    rw [ByteTimer.restarts, Block.clearing]
    simp only [ha, hb]
    cases counter.control.getLsbD 3 <;> cases counter.control.getLsbD 4 <;> rfl

def Block.flagBit : Block → TimerEvent → Nat
  | .channel _, .overflow => 4
  | .channel _, .compareA => 5
  | .channel _, .compareB => 6
  | .byteTimer, .overflow => 5
  | .byteTimer, .compareA => 6
  | .byteTimer, .compareB => 7

theorem Block.firstFlag_add_rank (block : Block) (event : TimerEvent) :
    block.firstFlag + event.rank = block.flagBit event := by
  cases block <;> cases event <;> rfl

def isSet (timer : Timer) (block : Block) (event : TimerEvent) : Bool :=
  (timer.counter block).status.getLsbD (block.flagBit event)

def isSeen (timer : Timer) (block : Block) (event : TimerEvent) : Bool :=
  (timer.counter block).seen.getLsbD (block.flagBit event)

def isEnabled (timer : Timer) (block : Block) (event : TimerEvent) : Bool :=
  (timer.counter block).control.getLsbD (block.flagBit event)

def occurs (timer : Timer) (block : Block) : TimerEvent → Bool
  | .overflow =>
    (timer.counter block).count == BitVec.allOnes block.width &&
      !(timer.counter block).clears (block.clearing (timer.counter block))
  | .compareA => (timer.counter block).count == (timer.counter block).compareA
  | .compareB => (timer.counter block).count == (timer.counter block).compareB

def Block.bit (block : Block) (event : TimerEvent) (data : Byte) : Bool := data.getLsbD (block.flagBit event)

theorem isSet_eq (timer : Timer) (block : Block) (event : TimerEvent) :
    timer.isSet block event = (timer.counter block).isSet event := by
  rw [isSet, ← Block.firstFlag_add_rank]
  rfl

theorem isSeen_eq (timer : Timer) (block : Block) (event : TimerEvent) :
    timer.isSeen block event = (timer.counter block).isSeen event := by
  rw [isSeen, ← Block.firstFlag_add_rank]
  rfl

theorem isEnabled_eq (timer : Timer) (block : Block) (event : TimerEvent) :
    timer.isEnabled block event = (timer.counter block).isEnabled event := by
  rw [isEnabled, ← Block.firstFlag_add_rank]
  rfl

theorem occurs_eq (timer : Timer) (block : Block) (event : TimerEvent) :
    timer.occurs block event = (timer.counter block).occurs (timer.restarts block) event := by
  cases event with
  | overflow =>
    rw [occurs, restarts_eq, Bool.and_comm]
    rfl
  | compareA => rfl
  | compareB => rfl

theorem flags_new (revision : Revision) (block : Block) (event : TimerEvent) :
    (new revision).isSet block event = false ∧ (new revision).isSeen block event = false := by
  have hstatus : ((new revision).counter block).status = 0 ∧ ((new revision).counter block).seen = 0 := by
    cases block <;> simp [new, counter, Timer.channel, Counter.new, Channel.new]
  constructor
  · rw [isSet, hstatus.1]
    exact BitVec.getLsbD_zero
  · rw [isSeen, hstatus.2]
    exact BitVec.getLsbD_zero

theorem flags_of_step (timer : Timer) {block : Block} {move : Move} (h : block.touch move = .step)
    (event : TimerEvent) :
    (timer.apply move).1.isSet block event = (timer.isSet block event || timer.occurs block event) ∧
      (timer.apply move).1.isSeen block event = timer.isSeen block event := by
  simp only [isSet_eq, isSeen_eq, occurs_eq, touch_eq_step h, (apply_step timer block).1]
  exact ⟨Counter.isSet_step block.firstFlag_le_five _ _ _, rfl⟩

theorem flags_of_statusRead (timer : Timer) {block : Block} {move : Move} (h : block.touch move = .statusRead)
    (event : TimerEvent) :
    (timer.apply move).1.isSet block event = timer.isSet block event ∧
      (timer.apply move).1.isSeen block event = (timer.isSeen block event || timer.isSet block event) := by
  simp only [isSet_eq, isSeen_eq, touch_eq_statusRead h, (apply_statusRead timer block).1]
  exact ⟨rfl, Counter.isSeen_readStatus block.firstFlag_le_five _ _⟩

theorem flags_of_statusWrite (timer : Timer) {block : Block} {move : Move} {data : Byte}
    (h : block.touch move = .statusWrite data) (event : TimerEvent) :
    (timer.apply move).1.isSet block event =
        (timer.isSet block event && (block.bit event data || !timer.isSeen block event)) ∧
      (timer.apply move).1.isSeen block event = (timer.isSeen block event && block.bit event data) := by
  simp only [isSet_eq, isSeen_eq, Block.bit, ← Block.firstFlag_add_rank, touch_eq_statusWrite h,
    (apply_statusWrite timer block data).1]
  exact ⟨Counter.isSet_writeStatus block.four_le_firstFlag block.firstFlag_le_five _ _ _,
    Counter.isSeen_writeStatus block.firstFlag_le_five _ _ _⟩

theorem flags_of_aside (timer : Timer) {block : Block} {move : Move} (h : block.touch move = .aside)
    (event : TimerEvent) :
    (timer.apply move).1.isSet block event = timer.isSet block event ∧
      (timer.apply move).1.isSeen block event = timer.isSeen block event := by
  have hspares := apply_aside timer h
  exact ⟨congrArg (fun status : Byte => status.getLsbD _) hspares.status,
    congrArg (fun seen : Byte => seen.getLsbD _) hspares.seen⟩

def levelAsked (timer : Timer) (block : Block) (event : TimerEvent) (move : Move) : Option Bool :=
  match block.touch move with
  | .step =>
    if timer.isEnabled block event && (timer.apply move).1.isSet block event then some true else none
  | .statusWrite data => if timer.isSeen block event && !block.bit event data then some false else none
  | _ => none

def requestsFor (block : Block) (event : TimerEvent) (requests : List Request) : List Request :=
  requests.filter fun request => request.source = block.source event

theorem requestsFor_own (block : Block) (event : TimerEvent) (reported : TimerEvent → Bool) (asserted : Bool) :
    requestsFor block event (block.requests (TimerEvent.all.filter reported) asserted) =
      if reported event then [⟨block.source event, asserted⟩] else [] := by
  have hsource (another : TimerEvent) : block.source another = block.source event ↔ another = event :=
    ⟨fun h => (Block.source_injective h).2, fun h => h ▸ rfl⟩
  simp only [requestsFor, Block.requests, List.filter_map, List.filter_filter, Function.comp_def, hsource]
  cases event <;> cases hreported : reported _ <;> simp [TimerEvent.all, hreported]

theorem requestsFor_apply (timer : Timer) (block : Block) (event : TimerEvent) (move : Move) :
    requestsFor block event (timer.apply move).2 =
      (timer.levelAsked block event move).toList.map fun asserted => ⟨block.source event, asserted⟩ := by
  cases htouch : block.touch move with
  | step =>
    have hrequests : requestsFor block event (timer.apply move).2 =
        if timer.isEnabled block event && (timer.apply move).1.isSet block event then
          [⟨block.source event, true⟩] else [] := by
      rw [touch_eq_step htouch, (apply_step timer block).2, isEnabled_eq, isSet_eq, (apply_step timer block).1]
      exact requestsFor_own block event
        (fun event => (timer.counter block).isEnabled event && Counter.isSet _ event) true
    rw [levelAsked, htouch, hrequests]
    dsimp only
    split <;> rfl
  | statusRead =>
    rw [levelAsked, htouch, touch_eq_statusRead htouch, (apply_statusRead timer block).2]
    rfl
  | statusWrite data =>
    have hrequests : requestsFor block event (timer.apply move).2 =
        if !block.bit event data && timer.isSeen block event then [⟨block.source event, false⟩] else [] := by
      rw [touch_eq_statusWrite htouch, (apply_statusWrite timer block data).2, isSeen_eq, Block.bit,
        ← Block.firstFlag_add_rank]
      exact requestsFor_own block event
        (fun event => !data.getLsbD (block.firstFlag + event.rank) && (timer.counter block).isSeen event) false
    rw [levelAsked, htouch, hrequests, Bool.and_comm]
    dsimp only
    split <;> rfl
  | aside =>
    have hnone : requestsFor block event (timer.apply move).2 = [] := by
      simp only [requestsFor, List.filter_eq_nil_iff, decide_eq_true_eq]
      intro request hrequest
      exact (apply_aside timer htouch).requests request hrequest event
    rw [levelAsked, htouch, hnone]
    rfl

end Microcontroller.Timer
