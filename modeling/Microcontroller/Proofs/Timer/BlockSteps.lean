import Microcontroller.Proofs.Timer.CatchUp
import Microcontroller.Proofs.Timer.CounterSteps
import Microcontroller.Proofs.Timer.Flags

namespace Microcontroller.Timer

open Interrupt (Request)

theorem clearing_next (block : Block) (counter : Counter block.width block.firstFlag)
    (clearing : Option Comparator) : block.clearing (counter.next clearing) = block.clearing counter := by
  cases block with
  | channel number =>
    have hbit : (counter.next clearing).status.getLsbD 0 = counter.status.getLsbD 0 := by
      apply Counter.getLsbD_status_step counter _ (by decide)
      intro event
      simp
    rw [Block.clearing, hbit, Block.clearing]
  | byteTimer => rfl

def Move.isClock : Move → Bool
  | .step _ => true
  | .elapse => true
  | _ => false

theorem isClock_of_mem_tickMoves {timer : Timer} {move : Move} (h : move ∈ timer.tickMoves) :
    move.isClock = true := by
  rcases List.mem_append.mp h with hstep | helapse
  · obtain ⟨block, -, rfl⟩ := List.mem_map.mp hstep
    rfl
  · rw [List.mem_singleton.mp helapse]
    rfl

theorem isClock_of_mem_cycleMoves {timer : Timer} {n : Nat} {move : Move} (h : move ∈ cycleMoves n timer) :
    move.isClock = true := by
  induction n generalizing timer with
  | zero => cases h
  | succ n ih =>
    rcases List.mem_append.mp h with htick | hrest
    · exact isClock_of_mem_tickMoves htick
    · exact ih hrest

section ClockMove

variable (timer : Timer) (block : Block) {move : Move} (hmove : move.isClock = true)

theorem counter_step_of_ne {other : Block} (h : other ≠ block) :
    (timer.apply (.step other)).1.counter block = timer.counter block := by
  cases other with
  | channel number =>
    cases block with
    | channel number' => exact counter_setChannel_of_ne timer (fun hnumber => h (congrArg Block.channel hnumber)) _
    | byteTimer => rfl
  | byteTimer =>
    cases block with
    | channel number => rfl
    | byteTimer => exact absurd rfl h

include hmove

theorem counter_apply : (timer.apply move).1.counter block =
    if move = .step block then (timer.counter block).next (block.clearing (timer.counter block))
    else timer.counter block := by
  cases move with
  | write port a data => cases hmove
  | read port a => cases hmove
  | step other =>
    by_cases h : other = block
    · subst h
      rw [if_pos rfl, (apply_step timer other).1, restarts_eq]
      rfl
    · rw [if_neg (fun hstep => h (Move.step.inj hstep)), counter_step_of_ne timer block h]
  | elapse =>
    rw [if_neg nofun]
    cases block <;> rfl

theorem clearing_apply :
    block.clearing ((timer.apply move).1.counter block) = block.clearing (timer.counter block) := by
  rw [counter_apply timer block hmove]
  split
  · exact clearing_next block _ _
  · rfl

theorem capture_apply (number : Fin 3) :
    ((timer.apply move).1.channel number).capture = (timer.channel number).capture := by
  cases move with
  | write port a data => cases hmove
  | read port a => cases hmove
  | step other =>
    cases other with
    | channel other =>
      by_cases h : other.val = number.val
      · obtain rfl := Fin.ext h
        simp [apply, stepBlock, setChannel, Timer.channel, Channel.step]
      · simp [apply, stepBlock, setChannel, Timer.channel, Vector.getElem_set_ne, h]
    | byteTimer => rfl
  | elapse => rfl

theorem revision_apply : (timer.apply move).1.revision = timer.revision := by
  cases move with
  | write port a data => cases hmove
  | read port a => cases hmove
  | step other => cases other <;> rfl
  | elapse => rfl

theorem isEnabled_apply_clock (event : TimerEvent) :
    (timer.apply move).1.isEnabled block event = timer.isEnabled block event := by
  rw [isEnabled, counter_apply timer block hmove]
  split <;> rfl

theorem requestsFor_apply_clock (event : TimerEvent) :
    requestsFor block event (timer.apply move).2 =
      if move = .step block ∧ timer.isEnabled block event = true ∧ (timer.apply move).1.isSet block event = true then
        [⟨block.source event, true⟩]
      else [] := by
  rw [requestsFor_apply]
  unfold levelAsked
  cases move with
  | write port a data => cases hmove
  | read port a => cases hmove
  | step other =>
    by_cases h : other = block
    · subst h
      rw [touch_step]
      simp only [true_and, Bool.and_eq_true]
      split <;> rfl
    · have htouch : block.touch (.step other) = .aside := if_neg h
      have hne : Move.step other ≠ .step block := fun hstep => h (Move.step.inj hstep)
      simp only [htouch, hne, false_and, if_false]
      rfl
  | elapse => rfl

end ClockMove

theorem period_congr {timer other : Timer} {block : Block} (hrevision : timer.revision = other.revision)
    (hcontrol : (timer.counter block).control = (other.counter block).control) :
    timer.period block = other.period block := by
  cases block with
  | channel number =>
    have hselect : (timer.channel number).counter.control = (other.channel number).counter.control := hcontrol
    simp only [period, Channel.period, hrevision, hselect]
  | byteTimer =>
    have hselect : timer.byteTimer.control = other.byteTimer.control := hcontrol
    simp only [period, ByteTimer.period, hrevision, hselect]

section ClockMoves

variable (timer : Timer) (block : Block) {moves : List Move} (hmoves : ∀ move ∈ moves, move.isClock = true)

include hmoves

theorem counter_replay : (timer.replay moves).1.counter block =
    (timer.counter block).steps (block.clearing (timer.counter block)) (moves.count (.step block)) := by
  induction moves generalizing timer with
  | nil => rfl
  | cons move moves ih =>
    have hmove := hmoves move List.mem_cons_self
    have hrest := ih (timer.apply move).1 fun other hother => hmoves other (List.mem_cons_of_mem move hother)
    change ((timer.apply move).1.replay moves).1.counter block = _
    rw [hrest, clearing_apply timer block hmove, counter_apply timer block hmove, List.count_cons]
    by_cases hstep : move = .step block
    · simp only [hstep, if_true, beq_self_eq_true]
      rw [Counter.steps_succ]
    · simp only [hstep, if_false, beq_iff_eq]
      rfl

theorem capture_replay (number : Fin 3) :
    ((timer.replay moves).1.channel number).capture = (timer.channel number).capture := by
  induction moves generalizing timer with
  | nil => rfl
  | cons move moves ih =>
    have hrest := ih (timer.apply move).1 fun other hother => hmoves other (List.mem_cons_of_mem move hother)
    exact hrest.trans (capture_apply timer (hmoves move List.mem_cons_self) number)

theorem revision_replay : (timer.replay moves).1.revision = timer.revision := by
  induction moves generalizing timer with
  | nil => rfl
  | cons move moves ih =>
    have hrest := ih (timer.apply move).1 fun other hother => hmoves other (List.mem_cons_of_mem move hother)
    exact hrest.trans (revision_apply timer (hmoves move List.mem_cons_self))

theorem period_replay : (timer.replay moves).1.period block = timer.period block := by
  apply period_congr (revision_replay timer hmoves)
  rw [counter_replay timer block hmoves, Counter.steps_eq]

theorem isEnabled_replay (event : TimerEvent) :
    (timer.replay moves).1.isEnabled block event = timer.isEnabled block event := by
  rw [isEnabled, counter_replay timer block hmoves, Counter.steps_eq]
  rfl

theorem requestsFor_replay (event : TimerEvent) :
    requestsFor block event (timer.replay moves).2 =
      List.replicate
        (if timer.isEnabled block event then
          (timer.counter block).countsSet (block.clearing (timer.counter block)) event (moves.count (.step block))
        else 0)
        ⟨block.source event, true⟩ := by
  induction moves generalizing timer with
  | nil => simp [replay, requestsFor, Counter.countsSet]
  | cons move moves ih =>
    have hmove := hmoves move List.mem_cons_self
    have hrest := ih (timer.apply move).1 fun other hother => hmoves other (List.mem_cons_of_mem move hother)
    have happend : requestsFor block event (timer.replay (move :: moves)).2 =
        requestsFor block event (timer.apply move).2 ++
          requestsFor block event ((timer.apply move).1.replay moves).2 := List.filter_append _ _
    rw [happend, hrest, requestsFor_apply_clock timer block hmove, isEnabled_apply_clock timer block hmove,
      clearing_apply timer block hmove, isSet_eq, counter_apply timer block hmove, List.count_cons]
    by_cases hstep : move = .step block
    · simp only [hstep, if_true, beq_self_eq_true, true_and, Counter.countsSet_succ]
      cases timer.isEnabled block event with
      | false => simp
      | true =>
        simp only [true_and, if_true]
        split <;> simp [List.replicate_succ]
    · simp [hstep]

end ClockMoves

end Microcontroller.Timer
