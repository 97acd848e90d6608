import Microcontroller.Proofs.Timer.Flags

namespace Microcontroller.Timer

open Interrupt (Request)

inductive FlagState where
  | clear
  | unread
  | read
  deriving DecidableEq

inductive Stimulus where
  | event
  | statusRead
  | statusWrite (bit : Bool)
  | other
  deriving DecidableEq

def FlagState.next : FlagState → Stimulus → FlagState
  | .clear, .event => .unread
  | .unread, .statusRead => .read
  | .read, .statusWrite false => .clear
  | state, _ => state

def stimulus (timer : Timer) (block : Block) (event : TimerEvent) (move : Move) : Stimulus :=
  match block.touch move with
  | .step => if timer.occurs block event then .event else .other
  | .statusRead => .statusRead
  | .statusWrite data => .statusWrite (block.bit event data)
  | .aside => .other

def flagState (block : Block) (event : TimerEvent) : Timer → FlagState → List Move → FlagState
  | _, state, [] => state
  | timer, state, move :: moves =>
    flagState block event (timer.apply move).1 (state.next (timer.stimulus block event move)) moves

structure Shows (timer : Timer) (block : Block) (event : TimerEvent) (state : FlagState) : Prop where
  set : timer.isSet block event = decide (state ≠ .clear)
  seen : timer.isSeen block event = decide (state = .read)

theorem shows_new (revision : Revision) (block : Block) (event : TimerEvent) :
    Shows (new revision) block event .clear :=
  ⟨(flags_new revision block event).1, (flags_new revision block event).2⟩

theorem shows_apply {timer : Timer} {block : Block} {event : TimerEvent} {state : FlagState} (move : Move)
    (h : Shows timer block event state) :
    Shows (timer.apply move).1 block event (state.next (timer.stimulus block event move)) := by
  obtain ⟨hset, hseen⟩ := h
  unfold stimulus
  cases htouch : block.touch move with
  | step =>
    obtain ⟨hset', hseen'⟩ := flags_of_step timer htouch event
    dsimp only
    cases hoccurs : timer.occurs block event <;> cases state <;>
      exact ⟨by simp_all [FlagState.next], by simp_all [FlagState.next]⟩
  | statusRead =>
    obtain ⟨hset', hseen'⟩ := flags_of_statusRead timer htouch event
    cases state <;> exact ⟨by simp_all [FlagState.next], by simp_all [FlagState.next]⟩
  | statusWrite data =>
    obtain ⟨hset', hseen'⟩ := flags_of_statusWrite timer htouch event
    dsimp only
    cases hbit : block.bit event data <;> cases state <;>
      exact ⟨by simp_all [FlagState.next], by simp_all [FlagState.next]⟩
  | aside =>
    obtain ⟨hset', hseen'⟩ := flags_of_aside timer htouch event
    cases state <;> exact ⟨by simp_all [FlagState.next], by simp_all [FlagState.next]⟩

theorem Shows.next_of_set {timer : Timer} {block : Block} {event : TimerEvent} {state : FlagState}
    (h : Shows timer block event state) (move : Move) (hclear : timer.isSet block event = false)
    (hset : (timer.apply move).1.isSet block event = true) :
    state.next (timer.stimulus block event move) = .unread := by
  have hstate : state = .clear := by
    rw [h.set] at hclear
    simpa using hclear
  have hnext : state.next (timer.stimulus block event move) ≠ .clear := by
    rw [(shows_apply move h).set] at hset
    exact of_decide_eq_true hset
  subst hstate
  cases hstimulus : timer.stimulus block event move with
  | event => rfl
  | _ => exact absurd (congrArg _ hstimulus) hnext

theorem shows_replay {timer : Timer} {block : Block} {event : TimerEvent} {state : FlagState}
    (moves : List Move) (h : Shows timer block event state) :
    Shows (timer.replay moves).1 block event (flagState block event timer state moves) := by
  induction moves generalizing timer state with
  | nil => exact h
  | cons move moves ih => exact ih (shows_apply move h)

theorem flagState_append (block : Block) (event : TimerEvent) (timer : Timer) (state : FlagState)
    (moves more : List Move) :
    flagState block event timer state (moves ++ more) =
      flagState block event (timer.replay moves).1 (flagState block event timer state moves) more := by
  induction moves generalizing timer state with
  | nil => rfl
  | cons move moves ih => exact ih _ _

theorem flagState_unread {block : Block} (event : TimerEvent) (timer : Timer) {moves : List Move}
    (h : ∀ move ∈ moves, block.touch move ≠ .statusRead) :
    flagState block event timer .unread moves = .unread := by
  induction moves generalizing timer with
  | nil => rfl
  | cons move moves ih =>
    have hnext : FlagState.next .unread (timer.stimulus block event move) = .unread := by
      have hread := h move List.mem_cons_self
      unfold stimulus
      cases htouch : block.touch move with
      | step => dsimp only; split <;> rfl
      | statusRead => exact absurd htouch hread
      | statusWrite data => rfl
      | aside => rfl
    rw [flagState, hnext]
    exact ih _ fun other hother => h other (List.mem_cons_of_mem move hother)

theorem levelAsked_eq_low {timer : Timer} {block : Block} {event : TimerEvent} {move : Move} :
    timer.levelAsked block event move = some false ↔
      timer.isSeen block event = true ∧ timer.stimulus block event move = .statusWrite false := by
  unfold levelAsked stimulus
  cases block.touch move with
  | step => dsimp only; split <;> split <;> simp
  | statusRead => simp
  | statusWrite data => simp
  | aside => simp

theorem count_requests (timer : Timer) (block : Block) (event : TimerEvent) (move : Move) (asserted : Bool) :
    (timer.apply move).2.count ⟨block.source event, asserted⟩ =
      if timer.levelAsked block event move = some asserted then 1 else 0 := by
  have hown : (requestsFor block event (timer.apply move).2).count ⟨block.source event, asserted⟩ =
      (timer.apply move).2.count ⟨block.source event, asserted⟩ := by
    apply List.count_filter
    exact decide_eq_true rfl
  rw [← hown, requestsFor_apply]
  cases timer.levelAsked block event move with
  | none => rfl
  | some level => cases level <;> cases asserted <;> simp

structure Sound (timer : Timer) (block : Block) : Prop where
  seen : ∀ i, (timer.counter block).seen.getLsbD i = true → ∃ event, i = block.flagBit event
  undefined : (timer.counter block).status.getLsbD block.undefinedBit = false

theorem sound_new (revision : Revision) (block : Block) : Sound (new revision) block := by
  cases block with
  | channel number =>
    constructor
    · intro i hi
      simp [new, counter, Timer.channel, Channel.new, Counter.new] at hi
    · simp [new, counter, Timer.channel, Channel.new, Counter.new]
  | byteTimer =>
    constructor
    · intro i hi
      simp [new, counter, Counter.new] at hi
    · simp [new, counter, Counter.new]

theorem sound_apply {timer : Timer} {block : Block} (move : Move) (h : Sound timer block) :
    Sound (timer.apply move).1 block := by
  have hundefined : 4 ≤ block.undefinedBit ∧ block.undefinedBit < 8 := by
    cases block <;> simp [Block.undefinedBit]
  cases htouch : block.touch move with
  | step =>
    rw [touch_eq_step htouch]
    have hcounter := (apply_step timer block).1
    constructor
    · rw [hcounter]
      exact h.seen
    · rw [hcounter, Counter.getLsbD_status_step _ _ hundefined.2 block.flag_ne_undefinedBit]
      exact h.undefined
  | statusRead =>
    rw [touch_eq_statusRead htouch]
    have hcounter := (apply_statusRead timer block).1
    constructor
    · rw [hcounter]
      intro i hi
      rcases Counter.getLsbD_seen_readStatus _ hi with hseen | hflag
      · exact h.seen i hseen
      · obtain ⟨event, rfl⟩ := hflag
        exact ⟨event, block.firstFlag_add_rank event⟩
    · rw [hcounter]
      exact h.undefined
  | statusWrite data =>
    rw [touch_eq_statusWrite htouch]
    have hcounter := (apply_statusWrite timer block data).1
    constructor
    · rw [hcounter]
      intro i hi
      exact h.seen i (Counter.getLsbD_seen_writeStatus _ data hi)
    · rw [hcounter]
      exact Counter.getLsbD_status_writeStatus _ data hundefined.2 hundefined.1 h.undefined
  | aside =>
    have hspares := apply_aside timer htouch
    constructor
    · rw [hspares.seen]
      exact h.seen
    · rw [hspares.status]
      exact h.undefined

theorem sound_replay {timer : Timer} {block : Block} (moves : List Move) (h : Sound timer block) :
    Sound (timer.replay moves).1 block := by
  induction moves generalizing timer with
  | nil => exact h
  | cons move moves ih => exact ih (sound_apply move h)

theorem flags_follow_protocol (revision : Revision) (commands : List Command) (block : Block)
    (event : TimerEvent) :
    let start := new revision
    start.replay (start.history commands) = start.run commands ∧
      ∀ before after, start.history commands = before ++ after →
        let timer := (start.replay before).1
        let state := flagState block event start .clear before
        timer.isSet block event = decide (state ≠ .clear) ∧
          timer.isSeen block event = decide (state = .read) ∧
          (∀ i, (timer.counter block).seen.getLsbD i = true →
            ∃ other, i = block.flagBit other ∧ timer.isSet block other = true) ∧
          (timer.counter block).status.getLsbD block.undefinedBit = false ∧
          (∀ move rest, after = move :: rest →
            (timer.apply move).2.count ⟨block.source event, false⟩ =
              if state = .read ∧ timer.stimulus block event move = .statusWrite false then 1 else 0) ∧
          (∀ move middle rest, after = move :: middle ++ rest → timer.isSet block event = false →
            (timer.apply move).1.isSet block event = true →
            (∀ other ∈ middle, block.touch other ≠ .statusRead) →
            (start.replay (before ++ move :: middle)).1.isSet block event = true) := by
  intro start
  refine ⟨replay_history start commands, ?_⟩
  intro before after _ timer state
  have hshows (other : TimerEvent) : Shows timer block other (flagState block other start .clear before) :=
    shows_replay before (shows_new revision block other)
  have hsound : Sound timer block := sound_replay before (sound_new revision block)
  refine ⟨(hshows event).set, (hshows event).seen, ?_, hsound.undefined, ?_, ?_⟩
  · intro i hi
    obtain ⟨other, rfl⟩ := hsound.seen i hi
    refine ⟨other, rfl, ?_⟩
    have hread := (hshows other).seen
    rw [isSeen, hi] at hread
    rw [(hshows other).set, of_decide_eq_true hread.symm]
    rfl
  · intro move rest _
    simp only [count_requests, levelAsked_eq_low, (hshows event).seen, decide_eq_true_eq]
    rfl
  · intro move middle rest _ hclear hset hread
    have hunread : state.next (timer.stimulus block event move) = .unread := by
      exact (hshows event).next_of_set move hclear hset
    have hstate : flagState block event start .clear (before ++ move :: middle) = .unread := by
      rw [flagState_append, flagState, hunread]
      exact flagState_unread event _ hread
    rw [(shows_replay (before ++ move :: middle) (shows_new revision block event)).set, hstate]
    rfl

theorem flags_follow_protocol_match_and_wrap :
    let start := new .generic
    let commands : List Command :=
      [.write .channels 0x12 0xFF, .write .channels 0x13 0xFE, .write .channels 0x14 0xFF, .write .channels 0x15 0xFF,
        .clock 16]
    let timer := (start.run commands).1
    let channel := Block.channel 0
    timer.isSet channel .overflow = true ∧ timer.isSet channel .compareA = true ∧
      timer.isSet channel .compareB = false ∧ timer.isSeen channel .overflow = false := by
  intro start commands timer channel
  have hreplay := (flags_follow_protocol .generic commands channel .overflow).1
  have hstate (event : TimerEvent) :=
    (flags_follow_protocol .generic commands channel event).2 (start.history commands) [] (List.append_nil _).symm
  rw [hreplay] at hstate
  refine ⟨(hstate .overflow).1.trans ?_, (hstate .compareA).1.trans ?_, (hstate .compareB).1.trans ?_,
    (hstate .overflow).2.1.trans ?_⟩ <;> decide +kernel

end Microcontroller.Timer
