import Microcontroller.Proofs.Timer.LineLatch

namespace Microcontroller.Timer

open Interrupt (Lines)

def timesSet (block : Block) (event : TimerEvent) : Timer → List Move → Nat
  | _, [] => 0
  | timer, move :: moves =>
    let next := (timer.apply move).1
    (if timer.isSet block event = false ∧ next.isSet block event = true then 1 else 0) +
      timesSet block event next moves

def EnabledAtSteps (timer : Timer) (block : Block) (event : TimerEvent) (moves : List Move) : Prop :=
  ∀ done rest, moves = done ++ .step block :: rest → (timer.replay done).1.isEnabled block event = true

theorem enabledAtSteps_cons {timer : Timer} {block : Block} {event : TimerEvent} {move : Move}
    {moves : List Move} (h : EnabledAtSteps timer block event (move :: moves)) :
    (block.touch move = .step → timer.isEnabled block event = true) ∧
      EnabledAtSteps (timer.apply move).1 block event moves := by
  constructor
  · intro htouch
    exact h [] moves (congrArg (· :: moves) (touch_eq_step htouch))
  · intro done rest hmoves
    exact h (move :: done) rest (congrArg (move :: ·) hmoves)

theorem enabledAtSteps_of_getElem? {timer : Timer} {block : Block} {event : TimerEvent} {moves : List Move}
    (h : ∀ n < moves.length, moves[n]? = some (.step block) →
      (timer.replay (moves.take n)).1.isEnabled block event = true) :
    EnabledAtSteps timer block event moves := by
  rintro done rest rfl
  have hdone := h done.length (by simp) (by simp)
  rwa [List.take_left] at hdone

theorem risingEdges_replay {timer : Timer} {lines : Lines} {block : Block} {event : TimerEvent}
    (moves : List Move) (hlevel : lines.isAsserted (block.source event) = timer.isSet block event)
    (henabled : EnabledAtSteps timer block event moves) :
    ((timer.replay moves).2.foldl Lines.apply lines).risingEdges (block.source event) =
      lines.risingEdges (block.source event) + BitVec.ofNat 32 (timesSet block event timer moves) := by
  induction moves generalizing timer lines with
  | nil => exact (BitVec.add_zero _).symm
  | cons move moves ih =>
    obtain ⟨hstep, hrest⟩ := enabledAtSteps_cons henabled
    have hnext : ((timer.apply move).2.foldl Lines.apply lines).isAsserted (block.source event) =
        (timer.apply move).1.isSet block event := by
      rw [isAsserted_apply]
      cases hasked : timer.levelAsked block event move with
      | none => rw [Option.getD_none, hlevel, isSet_of_enabled_not_asked hstep hasked]
      | some asserted => rw [Option.getD_some, isSet_of_levelAsked hasked]
    have hedge : timer.levelAsked block event move = some true ∧ lines.isAsserted (block.source event) = false ↔
        timer.isSet block event = false ∧ (timer.apply move).1.isSet block event = true := by
      rw [hlevel, and_comm, and_congr_right_iff]
      intro hclear
      constructor
      · exact isSet_of_levelAsked
      · intro hset
        cases hasked : timer.levelAsked block event move with
        | none =>
          rw [isSet_of_enabled_not_asked hstep hasked, hclear] at hset
          cases hset
        | some asserted => rw [← isSet_of_levelAsked hasked, hset]
    rw [replay_lines, ih hnext hrest, risingEdges_apply, timesSet]
    simp only [hedge]
    split
    · rw [BitVec.add_assoc, BitVec.ofNat_add]
      rfl
    · rw [Nat.zero_add]

theorem asked_of_changed {asked : Option Bool} {old level : Bool} (h : asked.getD old = level)
    (hne : old ≠ level) : asked = some level := by
  cases asked with
  | none => exact absurd h hne
  | some asserted => exact congrArg some h

theorem write_of_lowered {timer : Timer} {lines : Lines} {block : Block} {event : TimerEvent} {move : Move}
    (h : Covers timer lines block event) (hhigh : lines.isAsserted (block.source event) = true)
    (hlow : ((timer.apply move).2.foldl Lines.apply lines).isAsserted (block.source event) = false) :
    ∃ data, move = .write block.port block.statusAddress data ∧ block.bit event data = false ∧
      timer.isSet block event = true ∧ (timer.apply move).1.isSet block event = false := by
  rw [isAsserted_apply] at hlow
  have hasked : timer.levelAsked block event move = some false := by
    apply asked_of_changed hlow
    rw [hhigh]
    decide
  obtain ⟨data, htouch, hbit, -⟩ := write_of_levelAsked hasked
  exact ⟨data, touch_eq_statusWrite htouch, hbit, h hhigh, isSet_of_levelAsked hasked⟩

theorem step_of_raised {timer : Timer} {lines : Lines} {block : Block} {event : TimerEvent} {move : Move}
    (hlow : lines.isAsserted (block.source event) = false)
    (hhigh : ((timer.apply move).2.foldl Lines.apply lines).isAsserted (block.source event) = true) :
    move = .step block ∧ timer.isEnabled block event = true ∧ (timer.apply move).1.isSet block event = true := by
  rw [isAsserted_apply] at hhigh
  have hasked : timer.levelAsked block event move = some true := by
    apply asked_of_changed hhigh
    rw [hlow]
    decide
  obtain ⟨htouch, henabled, hset⟩ := levelAsked_eq_high.mp hasked
  exact ⟨touch_eq_step htouch, henabled, hset⟩

theorem lines_follow_flags (revision : Revision) (commands : List Command) (block : Block)
    (event : TimerEvent) :
    let start := new revision
    let source := block.source event
    start.replay (start.history commands) = start.run commands ∧
      ∀ before after, start.history commands = before ++ after →
        let timer := (start.replay before).1
        let lines := (start.replay before).2.foldl Lines.apply Lines.new
        (lines.isAsserted source = true ↔ Latched start block event before) ∧
          (lines.isAsserted source = true → timer.isSet block event = true) ∧
          (∀ move rest, after = move :: rest →
            let next := (timer.apply move).1
            let moved := (timer.apply move).2.foldl Lines.apply lines
            (lines.isAsserted source = true → moved.isAsserted source = false →
              ∃ data, move = .write block.port block.statusAddress data ∧ block.bit event data = false ∧
                timer.isSet block event = true ∧ next.isSet block event = false) ∧
            (lines.isAsserted source = false → moved.isAsserted source = true →
              move = .step block ∧ timer.isEnabled block event = true ∧ next.isSet block event = true)) ∧
          (EnabledAtSteps start block event before → timesSet block event start before < 4294967296 →
            (lines.risingEdges source).toNat = timesSet block event start before) := by
  intro start source
  refine ⟨replay_history start commands, ?_⟩
  intro before after _ timer lines
  have hdown : Lines.new.isAsserted source = false := BitVec.getLsbD_zero
  have hclear : start.isSet block event = false := (flags_new revision block event).1
  have hcovers : Covers start Lines.new block event := by
    intro hasserted
    rw [hdown] at hasserted
    cases hasserted
  refine ⟨?_, covers_replay before hcovers, ?_, ?_⟩
  · rw [isAsserted_replay before hcovers, hdown]
    simp
  · intro move rest _ next moved
    exact ⟨write_of_lowered (covers_replay before hcovers), step_of_raised⟩
  · intro henabled hcount
    have hedges := risingEdges_replay before (hdown.trans hclear.symm) henabled
    have hzero : Lines.new.risingEdges source = 0#32 := Vector.getElem_replicate _
    rw [hedges, hzero, BitVec.zero_add, BitVec.toNat_ofNat, Nat.mod_eq_of_lt hcount]

theorem lines_follow_flags_enabled_match :
    let start := new .generic
    let commands : List Command := [.write .channels 0x10 0x20, .clock 9]
    let made := (start.run commands).2
    let lines := made.foldl Lines.apply Lines.new
    made.length = 2 ∧ lines.isAsserted (.channel 0 .compareA) = true ∧
      (lines.risingEdges (.channel 0 .compareA)).toNat = 1 := by
  intro start commands made lines
  obtain ⟨hreplay, hlines⟩ := lines_follow_flags .generic commands (.channel 0) .compareA
  have hfinal := hlines (start.history commands) [] (List.append_nil _).symm
  rw [hreplay] at hfinal
  obtain ⟨hlatched, -, -, hedges⟩ := hfinal
  have hstays : StaysSet (start.replay [.write .channels 0x10 0x20, .step (.channel 0)]).1 (.channel 0) .compareA
      ((start.history commands).drop 2) := staysSet_of_take (by decide +kernel)
  have honce : timesSet (.channel 0) .compareA start (start.history commands) = 1 := by decide +kernel
  refine ⟨by decide +kernel, hlatched.mpr ⟨[.write .channels 0x10 0x20], _, ?_, ?_, hstays⟩, ?_⟩
  · decide +kernel
  · decide +kernel
  · rw [← honce]
    exact hedges (enabledAtSteps_of_getElem? (by decide +kernel)) (by rw [honce]; decide)

end Microcontroller.Timer
