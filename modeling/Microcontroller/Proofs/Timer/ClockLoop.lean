import Microcontroller.Proofs.Timer.CatchUp

/-!
The loop that catches the timer up, test by test. Below the last target it ends after the ticks that are due, and no
product that it tests wraps; for the last target it comes to a product that does, and goes on for ever.
-/

namespace Microcontroller.Timer

open Interrupt (Request)

inductive Used : Timer → Prop
  | new (revision : Revision) : Used (new revision)
  | rewired {timer : Timer} (revision : Revision) (h : Used timer) : Used { timer with revision }
  | access {timer : Timer} {command : Command} (hclock : ∀ target, command ≠ .clock target) (h : Used timer) :
      Used (timer.perform command).1
  | clock {timer : Timer} {target : BitVec 64} (htarget : target.toNat ≤ 2 ^ 64 - 2) (h : Used timer) :
      Used (timer.perform (.clock target)).1

/-- Catching up with the target tests this timer after so many ticks, which have made the requests. -/
inductive Tests (target : BitVec 64) (start : Timer) : (ticks : Nat) → Timer → (made : List Request) → Prop
  | first : Tests target start 0 start []
  | next {ticks : Nat} {timer : Timer} {made : List Request} (h : Tests target start ticks timer made)
      (hbehind : timer.isBehind target = true) : Tests target start (ticks + 1) timer.tick.1 (made ++ timer.tick.2)

theorem cycles_access (timer : Timer) {command : Command} (h : ∀ target, command ≠ .clock target) :
    (timer.perform command).1.cycles = timer.cycles := by
  cases command with
  | write port a data =>
    cases port with
    | channels =>
      change (timer.writeChannel a data).1.cycles = _
      unfold writeChannel
      split <;> rfl
    | byteTimer => rfl
  | read port a =>
    cases port with
    | channels =>
      change (timer.readChannel a).2.cycles = _
      unfold readChannel
      split <;> rfl
    | byteTimer => rfl
  | clock target => exact absurd rfl (h target)

theorem Used.cycles_lt {timer : Timer} (h : Used timer) : timer.cycles.toNat < 2 ^ 63 := by
  induction h with
  | new revision => exact Nat.two_pow_pos 63
  | rewired revision h ih => exact ih
  | access hclock h ih =>
    rw [cycles_access _ hclock]
    exact ih
  | clock htarget h ih =>
    rw [cycles_clock htarget]
    exact Nat.max_lt.mpr ⟨ih, reach_lt htarget⟩

section Loop

variable {target : BitVec 64} {start timer : Timer} {ticks : Nat} {made : List Request}

theorem tests_moves (h : ∀ earlier < ticks, (start.replay (cycleMoves earlier start)).1.isBehind target = true) :
    Tests target start ticks (start.replay (cycleMoves ticks start)).1 (start.replay (cycleMoves ticks start)).2 := by
  induction ticks with
  | zero => exact .first
  | succ ticks ih =>
    have hlast : cycleMoves 1 (start.replay (cycleMoves ticks start)).1 =
        (start.replay (cycleMoves ticks start)).1.tickMoves := List.append_nil _
    rw [cycleMoves_add, hlast, replay_append, replay_tickMoves]
    exact .next (ih fun earlier hearlier => h earlier (Nat.lt_succ_of_lt hearlier)) (h ticks (Nat.lt_succ_self ticks))

theorem cycles_tests (hcycles : start.cycles.toNat < 2 ^ 63) (htarget : target.toNat ≤ 2 ^ 64 - 2)
    (h : Tests target start ticks timer made) :
    timer.cycles.toNat = start.cycles.toNat + ticks ∧ timer.cycles.toNat ≤ max start.cycles.toNat (reach target) := by
  have hreach := reach_lt htarget
  induction h with
  | first => exact ⟨rfl, Nat.le_max_left _ _⟩
  | @next ticks timer made h hbehind ih =>
    obtain ⟨hcount, hle⟩ := ih
    have hlt : timer.cycles.toNat < 2 ^ 63 := Nat.lt_of_le_of_lt hle (Nat.max_lt.mpr ⟨hcycles, hreach⟩)
    have hahead := (isBehind_iff hlt target).mp hbehind
    have hnext := timer.cycles_tick (by omega)
    omega

theorem tests_due (htarget : target.toNat ≤ 2 ^ 64 - 2) :
    Tests target start (reach target - start.cycles.toNat) (start.clock target).1 (start.clock target).2.toList := by
  have hreach := reach_lt htarget
  have hbehind : ∀ earlier < reach target - start.cycles.toNat,
      (start.replay (cycleMoves earlier start)).1.isBehind target = true := by
    intro earlier hearlier
    have hcount := start.cycles_replay_cycleMoves (n := earlier) (by omega)
    exact (isBehind_iff (by omega) target).mpr (by omega)
  have htests := tests_moves hbehind
  rwa [← moves_clock htarget, replay_moves] at htests

theorem isBehind_last (htarget : target.toNat = 2 ^ 64 - 1) (timer : Timer) : timer.isBehind target = true := by
  rw [isBehind, decide_eq_true_eq, BitVec.lt_def, BitVec.toNat_mul, htarget]
  -- The wrapped product is even, the last target is odd.
  change timer.cycles.toNat * 2 % 2 ^ 64 < _
  omega

theorem tests_last (htarget : target.toNat = 2 ^ 64 - 1) (start : Timer) (ticks : Nat) :
    Tests target start ticks (start.replay (cycleMoves ticks start)).1 (start.replay (cycleMoves ticks start)).2 :=
  tests_moves fun _ _ => isBehind_last htarget _

theorem tests_wrapped (hcycles : start.cycles.toNat < 2 ^ 63) (htarget : target.toNat = 2 ^ 64 - 1) :
    ∃ ticks timer made, Tests target start ticks timer made ∧ timer.cycles.toNat = 2 ^ 63 ∧ timer.cycles * 2 = 0 := by
  have hcount := start.cycles_replay_cycleMoves (n := 2 ^ 63 - start.cycles.toNat) (by omega)
  have hlast : (start.replay (cycleMoves (2 ^ 63 - start.cycles.toNat) start)).1.cycles.toNat = 2 ^ 63 := by omega
  refine ⟨_, _, _, tests_last htarget start _, hlast, ?_⟩
  apply BitVec.eq_of_toNat_eq
  rw [BitVec.toNat_mul, hlast]
  rfl

end Loop

theorem clock_loop_ends :
    (∀ timer, Used timer → timer.cycles.toNat < 2 ^ 63) ∧
      ∀ start : Timer, start.cycles.toNat < 2 ^ 63 →
        (∀ target : BitVec 64, target.toNat ≤ 2 ^ 64 - 2 →
          let due := (target.toNat + 1) / 2 - start.cycles.toNat
          let (last, requests) := start.clock target
          Tests target start due last requests.toList ∧ last.isBehind target = false ∧
            ∀ ticks timer made, Tests target start ticks timer made →
              ticks ≤ due ∧ timer.cycles.toNat * 2 < 2 ^ 64 ∧ timer.cycles.toNat < 2 ^ 63) ∧
        ∀ target : BitVec 64,
          (target.toNat = 2 ^ 64 - 1 →
            (∃ ticks timer made, Tests target start ticks timer made ∧ timer.cycles.toNat = 2 ^ 63 ∧
              timer.cycles * 2 = 0) ∧
            ∀ ticks, ∃ timer made, Tests target start ticks timer made ∧ timer.isBehind target = true) ∧
          ((∀ ticks timer made, Tests target start ticks timer made → timer.cycles.toNat * 2 < 2 ^ 64) ↔
            target.toNat ≠ 2 ^ 64 - 1) := by
  refine ⟨fun timer => Used.cycles_lt, ?_⟩
  intro start hcycles
  have hwithin {target : BitVec 64} (htarget : target.toNat ≤ 2 ^ 64 - 2) {ticks : Nat} {timer : Timer}
      {made : List Request} (h : Tests target start ticks timer made) :
      ticks ≤ reach target - start.cycles.toNat ∧ timer.cycles.toNat * 2 < 2 ^ 64 ∧ timer.cycles.toNat < 2 ^ 63 := by
    have hreach := reach_lt htarget
    obtain ⟨hcount, hle⟩ := cycles_tests hcycles htarget h
    omega
  refine ⟨?_, ?_⟩
  · intro target htarget
    exact ⟨tests_due htarget, isBehind_clock hcycles htarget, fun _ _ _ => hwithin htarget⟩
  · intro target
    refine ⟨?_, ?_, ?_⟩
    · intro htarget
      refine ⟨tests_wrapped hcycles htarget, fun ticks => ?_⟩
      exact ⟨_, _, tests_last htarget start ticks, isBehind_last htarget _⟩
    · intro hfits htarget
      obtain ⟨ticks, timer, made, htests, hcount, -⟩ := tests_wrapped hcycles htarget
      have hfit := hfits ticks timer made htests
      omega
    · intro hne ticks timer made h
      have htarget : target.toNat ≤ 2 ^ 64 - 2 := by
        have hlt := target.isLt
        omega
      exact (hwithin htarget h).2.1

theorem clock_loop_ends_after_four :
    let start := ((new .generic).clock 9).1
    let (last, requests) := start.clock 17
    start.cycles = 5 ∧ Tests 17 start 4 last requests.toList ∧
      ∀ ticks, ∃ timer made, Tests (.allOnes 64) start ticks timer made ∧ timer.isBehind (.allOnes 64) = true := by
  have hcycles : ((new .generic).clock 9).1.cycles = 5 := by decide
  have hlow : ((new .generic).clock 9).1.cycles.toNat < 2 ^ 63 := by
    rw [hcycles]
    decide
  obtain ⟨hnear, hlast⟩ := clock_loop_ends.2 _ hlow
  have hdue := (hnear 17 (by decide)).1
  rw [hcycles] at hdue
  have hwraps := (hlast (.allOnes 64)).1 BitVec.toNat_allOnes
  exact ⟨hcycles, hdue, hwraps.2⟩

end Microcontroller.Timer
