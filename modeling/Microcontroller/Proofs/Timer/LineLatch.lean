import Microcontroller.Proofs.Timer.LineRequests

namespace Microcontroller.Timer

open Interrupt (Lines)

def StaysSet (timer : Timer) (block : Block) (event : TimerEvent) (moves : List Move) : Prop :=
  ∀ done rest, moves = done ++ rest → (timer.replay done).1.isSet block event = true

/-- Some count of the block left the flag set and enabled, and it has been set since. -/
def Latched (timer : Timer) (block : Block) (event : TimerEvent) (moves : List Move) : Prop :=
  ∃ done rest, moves = done ++ .step block :: rest ∧
    let stepped := (timer.replay (done ++ [.step block])).1
    stepped.isEnabled block event = true ∧ stepped.StaysSet block event rest

theorem staysSet_nil {timer : Timer} {block : Block} {event : TimerEvent} :
    StaysSet timer block event [] ↔ timer.isSet block event = true := by
  constructor
  · intro h
    exact h [] [] rfl
  · intro h done rest hmoves
    rw [(List.nil_eq_append_iff.mp hmoves).1]
    exact h

theorem staysSet_cons {timer : Timer} {block : Block} {event : TimerEvent} {move : Move}
    {moves : List Move} :
    StaysSet timer block event (move :: moves) ↔
      timer.isSet block event = true ∧ StaysSet (timer.apply move).1 block event moves := by
  constructor
  · intro h
    refine ⟨h [] (move :: moves) rfl, ?_⟩
    intro done rest hmoves
    exact h (move :: done) rest (congrArg (move :: ·) hmoves)
  · rintro ⟨hset, hstays⟩ done rest hmoves
    cases done with
    | nil => exact hset
    | cons first done =>
      obtain ⟨rfl, hrest⟩ := List.cons.inj hmoves
      exact hstays done rest hrest

theorem StaysSet.isSet {timer : Timer} {block : Block} {event : TimerEvent} {moves : List Move}
    (h : StaysSet timer block event moves) : timer.isSet block event = true :=
  h [] moves rfl

theorem staysSet_of_take {timer : Timer} {block : Block} {event : TimerEvent} {moves : List Move}
    (h : ∀ n ≤ moves.length, (timer.replay (moves.take n)).1.isSet block event = true) :
    StaysSet timer block event moves := by
  rintro done rest rfl
  have hdone := h done.length (by simp)
  rwa [List.take_left] at hdone

theorem not_latched_nil {timer : Timer} {block : Block} {event : TimerEvent} :
    ¬ Latched timer block event [] := by
  rintro ⟨done, rest, hmoves, -⟩
  cases done <;> cases hmoves

theorem latched_cons {timer : Timer} {block : Block} {event : TimerEvent} {move : Move} {moves : List Move} :
    Latched timer block event (move :: moves) ↔
      (move = .step block ∧ (timer.apply move).1.isEnabled block event = true ∧
        StaysSet (timer.apply move).1 block event moves) ∨
      Latched (timer.apply move).1 block event moves := by
  constructor
  · rintro ⟨done, rest, hmoves, henabled, hstays⟩
    cases done with
    | nil =>
      obtain ⟨rfl, rfl⟩ := List.cons.inj hmoves
      exact Or.inl ⟨rfl, henabled, hstays⟩
    | cons first done =>
      obtain ⟨rfl, hrest⟩ := List.cons.inj hmoves
      exact Or.inr ⟨done, rest, hrest, henabled, hstays⟩
  · rintro (⟨rfl, henabled, hstays⟩ | ⟨done, rest, rfl, henabled, hstays⟩)
    · exact ⟨[], moves, rfl, henabled, hstays⟩
    · exact ⟨move :: done, rest, rfl, henabled, hstays⟩

theorem isEnabled_step (timer : Timer) (block : Block) (event : TimerEvent) :
    (timer.apply (.step block)).1.isEnabled block event = timer.isEnabled block event := by
  rw [isEnabled, (apply_step timer block).1]
  rfl

def Covers (timer : Timer) (lines : Lines) (block : Block) (event : TimerEvent) : Prop :=
  lines.isAsserted (block.source event) = true → timer.isSet block event = true

theorem covers_apply {timer : Timer} {lines : Lines} {block : Block} {event : TimerEvent} (move : Move)
    (h : Covers timer lines block event) :
    Covers (timer.apply move).1 ((timer.apply move).2.foldl Lines.apply lines) block event := by
  intro hasserted
  rw [isAsserted_apply] at hasserted
  cases hasked : timer.levelAsked block event move with
  | none =>
    rw [hasked, Option.getD_none] at hasserted
    exact isSet_of_not_asked hasked (h hasserted)
  | some asserted =>
    rw [hasked, Option.getD_some] at hasserted
    rw [isSet_of_levelAsked hasked, hasserted]

theorem getD_levelAsked {timer : Timer} {lines : Lines} {block : Block} {event : TimerEvent} {move : Move}
    (h : Covers timer lines block event) (hset : (timer.apply move).1.isSet block event = true) :
    (timer.levelAsked block event move).getD (lines.isAsserted (block.source event)) = true ↔
      (lines.isAsserted (block.source event) = true ∧ timer.isSet block event = true) ∨
        (move = .step block ∧ (timer.apply move).1.isEnabled block event = true) := by
  cases hasked : timer.levelAsked block event move with
  | none =>
    rw [Option.getD_none]
    constructor
    · intro hasserted
      exact Or.inl ⟨hasserted, h hasserted⟩
    · rintro (⟨hasserted, -⟩ | ⟨rfl, henabled⟩)
      · exact hasserted
      · rw [isEnabled_step] at henabled
        rw [levelAsked_eq_high.mpr ⟨touch_step block, henabled, hset⟩] at hasked
        cases hasked
  | some asserted =>
    obtain rfl : true = asserted := hset.symm.trans (isSet_of_levelAsked hasked)
    obtain ⟨htouch, henabled, -⟩ := levelAsked_eq_high.mp hasked
    have hmove := touch_eq_step htouch
    subst hmove
    rw [isEnabled_step]
    exact iff_of_true rfl (Or.inr ⟨rfl, henabled⟩)

theorem replay_lines (timer : Timer) (lines : Lines) (move : Move) (moves : List Move) :
    (timer.replay (move :: moves)).2.foldl Lines.apply lines =
      ((timer.apply move).1.replay moves).2.foldl Lines.apply ((timer.apply move).2.foldl Lines.apply lines) := by
  rw [replay]
  exact List.foldl_append

theorem covers_replay {timer : Timer} {lines : Lines} {block : Block} {event : TimerEvent} (moves : List Move)
    (h : Covers timer lines block event) :
    Covers (timer.replay moves).1 ((timer.replay moves).2.foldl Lines.apply lines) block event := by
  induction moves generalizing timer lines with
  | nil => exact h
  | cons move moves ih =>
    rw [replay_lines]
    exact ih (covers_apply move h)

theorem isAsserted_replay {timer : Timer} {lines : Lines} {block : Block} {event : TimerEvent}
    (moves : List Move) (h : Covers timer lines block event) :
    ((timer.replay moves).2.foldl Lines.apply lines).isAsserted (block.source event) = true ↔
      (lines.isAsserted (block.source event) = true ∧ StaysSet timer block event moves) ∨
        Latched timer block event moves := by
  induction moves generalizing timer lines with
  | nil =>
    simp only [staysSet_nil, not_latched_nil, or_false]
    exact ⟨fun hasserted => ⟨hasserted, h hasserted⟩, fun hboth => hboth.1⟩
  | cons move moves ih =>
    rw [replay_lines, ih (covers_apply move h), isAsserted_apply, staysSet_cons, latched_cons]
    by_cases hstays : StaysSet (timer.apply move).1 block event moves
    · rw [getD_levelAsked h hstays.isSet]
      simp only [hstays, and_true, or_assoc]
    · simp only [hstays, and_false, false_or]

end Microcontroller.Timer
