import Microcontroller.Proofs.Interrupt.LineView
import Microcontroller.Proofs.Timer.Flags

namespace Microcontroller.Timer

open Interrupt (Request Source Lines)

theorem Block.source_mem_timers (block : Block) (event : TimerEvent) : block.source event ∈ Source.timers := by
  cases block with
  | channel number => cases event <;> decide +revert
  | byteTimer => cases event <;> decide

theorem requests_writeChannel (timer : Timer) (a : Address) (data : Byte) :
    ∃ block events, (timer.writeChannel a data).2 = Block.requests block events false := by
  unfold writeChannel
  split
  next => exact ⟨.byteTimer, [], rfl⟩
  next number _ => exact ⟨.channel number, _, rfl⟩
  next => exact ⟨.byteTimer, [], rfl⟩
  next => exact ⟨.byteTimer, [], rfl⟩
  next => exact ⟨.byteTimer, [], rfl⟩

theorem requests_writeByteTimer (timer : Timer) (a : Address) (data : Byte) :
    ∃ events, (timer.writeByteTimer a data).2 = Block.byteTimer.requests events false := by
  unfold writeByteTimer ByteTimer.write
  cases ByteTimer.Location.ofAddress? a with
  | none => exact ⟨[], rfl⟩
  | some location =>
    cases location with
    | status => exact ⟨_, rfl⟩
    | _ => exact ⟨[], rfl⟩

theorem requests_apply (timer : Timer) (move : Move) :
    ∃ block events asserted, (timer.apply move).2 = Block.requests block events asserted := by
  cases move with
  | write port a data =>
    cases port with
    | channels =>
      obtain ⟨block, events, h⟩ := requests_writeChannel timer a data
      exact ⟨block, events, false, h⟩
    | byteTimer =>
      obtain ⟨events, h⟩ := requests_writeByteTimer timer a data
      exact ⟨.byteTimer, events, false, h⟩
  | read port a => exact ⟨.byteTimer, [], false, rfl⟩
  | step block => exact ⟨block, _, true, (apply_step timer block).2⟩
  | elapse => exact ⟨.byteTimer, [], false, rfl⟩

theorem view_apply (timer : Timer) (lines : Lines) (block : Block) (event : TimerEvent) (move : Move) :
    ((timer.apply move).2.foldl Lines.apply lines).view (block.source event) =
      (timer.levelAsked block event move).elim (lines.view (block.source event))
        (Lines.ask (lines.view (block.source event))) := by
  have howner : ∀ request ∈ (timer.apply move).2,
      request.source.line = (block.source event).line → request.source = block.source event := by
    intro request hrequest hline
    obtain ⟨other, events, asserted, hrequests⟩ := requests_apply timer move
    rw [hrequests] at hrequest
    obtain ⟨another, -, rfl⟩ := List.mem_map.mp hrequest
    exact Source.eq_of_line_eq (other.source_mem_timers another) (block.source_mem_timers event) hline
  rw [Lines.view_foldl_apply, Lines.filter_line howner]
  change ((requestsFor block event (timer.apply move).2).map _).foldl _ _ = _
  rw [requestsFor_apply]
  cases timer.levelAsked block event move with
  | none => rfl
  | some asserted => rfl

theorem isAsserted_apply (timer : Timer) (lines : Lines) (block : Block) (event : TimerEvent) (move : Move) :
    ((timer.apply move).2.foldl Lines.apply lines).isAsserted (block.source event) =
      (timer.levelAsked block event move).getD (lines.isAsserted (block.source event)) := by
  refine (congrArg Prod.fst (view_apply timer lines block event move)).trans ?_
  cases timer.levelAsked block event move with
  | none => rfl
  | some asserted => rfl

theorem risingEdges_apply (timer : Timer) (lines : Lines) (block : Block) (event : TimerEvent) (move : Move) :
    ((timer.apply move).2.foldl Lines.apply lines).risingEdges (block.source event) =
      if timer.levelAsked block event move = some true ∧ lines.isAsserted (block.source event) = false then
        lines.risingEdges (block.source event) + 1
      else lines.risingEdges (block.source event) := by
  refine (congrArg Prod.snd (view_apply timer lines block event move)).trans ?_
  cases timer.levelAsked block event move with
  | none => simp [Lines.view]
  | some asserted => cases asserted <;> simp [Lines.view, Lines.ask]

theorem levelAsked_eq_high {timer : Timer} {block : Block} {event : TimerEvent} {move : Move} :
    timer.levelAsked block event move = some true ↔
      block.touch move = .step ∧ timer.isEnabled block event = true ∧
        (timer.apply move).1.isSet block event = true := by
  unfold levelAsked
  cases block.touch move <;> simp

theorem write_of_levelAsked {timer : Timer} {block : Block} {event : TimerEvent} {move : Move}
    (h : timer.levelAsked block event move = some false) :
    ∃ data, block.touch move = .statusWrite data ∧ block.bit event data = false ∧
      timer.isSeen block event = true := by
  unfold levelAsked at h
  cases htouch : block.touch move with
  | statusWrite data =>
    simp only [htouch, Option.ite_none_right_eq_some, Bool.and_eq_true, Bool.not_eq_true'] at h
    exact ⟨data, rfl, h.1.2, h.1.1⟩
  | _ => simp [htouch] at h

theorem isSet_of_levelAsked {timer : Timer} {block : Block} {event : TimerEvent} {move : Move}
    {asserted : Bool} (h : timer.levelAsked block event move = some asserted) :
    (timer.apply move).1.isSet block event = asserted := by
  cases asserted with
  | true => exact (levelAsked_eq_high.mp h).2.2
  | false =>
    obtain ⟨data, htouch, hbit, hseen⟩ := write_of_levelAsked h
    rw [(flags_of_statusWrite timer htouch event).1, hbit, hseen]
    exact Bool.and_false _

theorem isSet_of_not_asked {timer : Timer} {block : Block} {event : TimerEvent} {move : Move}
    (h : timer.levelAsked block event move = none) (hset : timer.isSet block event = true) :
    (timer.apply move).1.isSet block event = true := by
  cases htouch : block.touch move with
  | step => rw [(flags_of_step timer htouch event).1, hset, Bool.true_or]
  | statusRead => rw [(flags_of_statusRead timer htouch event).1, hset]
  | statusWrite data =>
    simp only [levelAsked, htouch, ite_eq_right_iff, Bool.and_eq_true, Bool.not_eq_true', reduceCtorEq,
      imp_false, not_and, Bool.not_eq_false] at h
    rw [(flags_of_statusWrite timer htouch event).1, hset]
    cases hseen : timer.isSeen block event with
    | false => simp
    | true => simp [h hseen]
  | aside => rw [(flags_of_aside timer htouch event).1, hset]

theorem isSet_of_enabled_not_asked {timer : Timer} {block : Block} {event : TimerEvent} {move : Move}
    (henabled : block.touch move = .step → timer.isEnabled block event = true)
    (h : timer.levelAsked block event move = none) :
    (timer.apply move).1.isSet block event = timer.isSet block event := by
  cases hset : timer.isSet block event with
  | true => exact isSet_of_not_asked h hset
  | false =>
    cases htouch : block.touch move with
    | step =>
      cases hafter : (timer.apply move).1.isSet block event with
      | false => rfl
      | true =>
        rw [levelAsked_eq_high.mpr ⟨htouch, henabled htouch, hafter⟩] at h
        cases h
    | statusRead => rw [(flags_of_statusRead timer htouch event).1, hset]
    | statusWrite data => rw [(flags_of_statusWrite timer htouch event).1, hset, Bool.false_and]
    | aside => rw [(flags_of_aside timer htouch event).1, hset]

end Microcontroller.Timer
