import Mathlib.Algebra.Group.Nat.Defs
import Mathlib.Data.List.MinMax
import Microcontroller.Proofs.Timer.Moves

namespace Microcontroller.Timer

def reach (target : BitVec 64) : Nat := (target.toNat + 1) / 2

theorem reach_mono {target other : BitVec 64} (h : target ≤ other) : reach target ≤ reach other := by
  have hnat := BitVec.le_def.mp h
  unfold reach
  omega

theorem reach_lt {target : BitVec 64} (h : target.toNat ≤ 2 ^ 64 - 2) : reach target < 2 ^ 63 := by
  unfold reach
  omega

def cycleMoves : (n : Nat) → Timer → List Move
  | 0, _ => []
  | n + 1, timer => timer.tickMoves ++ cycleMoves n timer.tick.1

theorem replay_cycleMoves_succ (timer : Timer) (n : Nat) :
    (timer.replay (cycleMoves (n + 1) timer)).1 = (timer.tick.1.replay (cycleMoves n timer.tick.1)).1 := by
  rw [cycleMoves, replay_append, replay_tickMoves]

theorem cycleMoves_add (timer : Timer) (m n : Nat) :
    cycleMoves (m + n) timer = cycleMoves m timer ++ cycleMoves n (timer.replay (cycleMoves m timer)).1 := by
  induction m generalizing timer with
  | zero =>
    rw [Nat.zero_add]
    rfl
  | succ m ih => rw [Nat.succ_add, cycleMoves, ih, replay_cycleMoves_succ, cycleMoves, List.append_assoc]

theorem cycles_tick (timer : Timer) (h : timer.cycles.toNat + 1 < 2 ^ 64) :
    timer.tick.1.cycles.toNat = timer.cycles.toNat + 1 := by
  change (timer.cycles + 1).toNat = _
  rw [BitVec.toNat_add_of_lt h]
  rfl

theorem cycles_replay_cycleMoves (timer : Timer) {n : Nat} (h : timer.cycles.toNat + n < 2 ^ 64) :
    (timer.replay (cycleMoves n timer)).1.cycles.toNat = timer.cycles.toNat + n := by
  induction n generalizing timer with
  | zero => rfl
  | succ n ih =>
    have hnext := timer.cycles_tick (by omega)
    rw [replay_cycleMoves_succ, ih _ (by omega)]
    omega

theorem isBehind_iff {timer : Timer} (h : timer.cycles.toNat < 2 ^ 63) (target : BitVec 64) :
    timer.isBehind target = true ↔ timer.cycles.toNat < reach target := by
  have hdouble : (timer.cycles * 2).toNat = timer.cycles.toNat * 2 := by
    rw [BitVec.toNat_mul]
    change timer.cycles.toNat * 2 % 2 ^ 64 = _
    omega
  rw [isBehind, decide_eq_true_eq, BitVec.lt_def, hdouble, reach]
  omega

theorem catchUpMoves_eq {target : BitVec 64} (htarget : target.toNat ≤ 2 ^ 64 - 2) (timer : Timer) {fuel : Nat}
    (hfuel : timer.cycles.toNat + fuel = reach target) : catchUpMoves target fuel timer = cycleMoves fuel timer := by
  have hreach := reach_lt htarget
  induction fuel generalizing timer with
  | zero => rfl
  | succ fuel ih =>
    have hbehind : timer.isBehind target = true := (isBehind_iff (by omega) target).mpr (by omega)
    have hnext := timer.cycles_tick (by omega)
    rw [catchUpMoves, if_pos hbehind, ih _ (by omega), cycleMoves]

theorem moves_clock {target : BitVec 64} (htarget : target.toNat ≤ 2 ^ 64 - 2) (timer : Timer) :
    timer.moves (.clock target) = cycleMoves (reach target - timer.cycles.toNat) timer := by
  change catchUpMoves target (reach target - timer.cycles.toNat) timer = _
  by_cases hahead : timer.cycles.toNat ≤ reach target
  · exact catchUpMoves_eq htarget timer (by omega)
  · have hnone : reach target - timer.cycles.toNat = 0 := by omega
    rw [hnone]
    rfl

theorem cycles_clock {target : BitVec 64} (htarget : target.toNat ≤ 2 ^ 64 - 2) (timer : Timer) :
    (timer.perform (.clock target)).1.cycles.toNat = max timer.cycles.toNat (reach target) := by
  have hreach := reach_lt htarget
  have hcycles := timer.cycles.isLt
  rw [← replay_moves, moves_clock htarget, cycles_replay_cycleMoves _ (by omega)]
  omega

theorem isBehind_clock {timer : Timer} (hcycles : timer.cycles.toNat < 2 ^ 63) {target : BitVec 64}
    (htarget : target.toNat ≤ 2 ^ 64 - 2) : (timer.perform (.clock target)).1.isBehind target = false := by
  have hfinal := cycles_clock htarget timer
  have hreach := reach_lt htarget
  rw [Bool.eq_false_iff, ne_eq, isBehind_iff (by omega)]
  omega

def furthest (targets : List (BitVec 64)) : Nat := (targets.map reach).foldr max 0

theorem furthest_cons (target : BitVec 64) (targets : List (BitVec 64)) :
    furthest (target :: targets) = max (reach target) (furthest targets) := rfl

theorem furthest_le {targets : List (BitVec 64)} {latest : BitVec 64}
    (hlatest : ∀ target ∈ targets, target ≤ latest) : furthest targets ≤ reach latest := by
  induction targets with
  | nil => exact Nat.zero_le _
  | cons target targets ih =>
    have hhead := reach_mono (hlatest target List.mem_cons_self)
    have htail := ih fun other hother => hlatest other (List.mem_cons_of_mem target hother)
    exact Nat.max_le.mpr ⟨hhead, htail⟩

theorem le_furthest {targets : List (BitVec 64)} {target : BitVec 64} (hmem : target ∈ targets) :
    reach target ≤ furthest targets := List.le_max_of_le' 0 (List.mem_map_of_mem hmem) (Nat.le_refl _)

theorem history_clocks (timer : Timer) {targets : List (BitVec 64)}
    (htargets : ∀ target ∈ targets, target.toNat ≤ 2 ^ 64 - 2) :
    timer.history (targets.map .clock) = cycleMoves (furthest targets - timer.cycles.toNat) timer := by
  induction targets generalizing timer with
  | nil =>
    have hnone : furthest [] - timer.cycles.toNat = 0 := Nat.zero_sub _
    rw [hnone]
    rfl
  | cons target targets ih =>
    have htarget := htargets target List.mem_cons_self
    have hrest := ih (timer.perform (.clock target)).1 fun other hother =>
      htargets other (List.mem_cons_of_mem target hother)
    have hsplit : furthest (target :: targets) - timer.cycles.toNat =
        (reach target - timer.cycles.toNat) + (furthest targets - max timer.cycles.toNat (reach target)) := by
      rw [furthest_cons]
      omega
    rw [List.map_cons, history, hrest, cycles_clock htarget, hsplit, cycleMoves_add, ← moves_clock htarget,
      replay_moves]

theorem run_clocks_eq_clock_latest (timer : Timer) (targets : List (BitVec 64)) (latest : BitVec 64)
    (hcycles : timer.cycles.toNat < 2 ^ 63) (htargets : ∀ target ∈ targets, target.toNat ≤ 2 ^ 64 - 2)
    (hmem : latest ∈ targets) (hlatest : ∀ target ∈ targets, target ≤ latest) :
    let final := (timer.run (targets.map .clock)).1
    timer.run (targets.map .clock) = timer.perform (.clock latest) ∧
      final.cycles.toNat = max timer.cycles.toNat ((latest.toNat + 1) / 2) ∧ final.isBehind latest = false := by
  intro final
  have htarget := htargets latest hmem
  have hmoves : timer.history (targets.map .clock) = timer.moves (.clock latest) := by
    have hfurthest := Nat.le_antisymm (furthest_le hlatest) (le_furthest hmem)
    rw [history_clocks timer htargets, hfurthest, moves_clock htarget]
  have hrun : timer.run (targets.map .clock) = timer.perform (.clock latest) := by
    rw [← replay_history, hmoves, replay_moves]
  have hfinal : final = (timer.perform (.clock latest)).1 := congrArg Prod.fst hrun
  rw [hfinal]
  exact ⟨hrun, cycles_clock htarget timer, isBehind_clock hcycles htarget⟩

theorem run_clocks_out_of_order :
    let timer := ((new .generic).perform (.write .channels 0x10 0x20)).1
    let targets : List (BitVec 64) := [10, 4, 13]
    timer.cycles.toNat < 2 ^ 63 ∧ (∀ target ∈ targets, target.toNat ≤ 2 ^ 64 - 2) ∧ 13 ∈ targets ∧
      (∀ target ∈ targets, target ≤ 13) ∧
      timer.run (targets.map .clock) = timer.perform (.clock 13) ∧
      (timer.run (targets.map .clock)).1.cycles.toNat = 7 := by
  intro timer targets
  have hcycles : timer.cycles.toNat < 2 ^ 63 := by decide
  have htargets : ∀ target ∈ targets, target.toNat ≤ 2 ^ 64 - 2 := by simp [targets]
  have hmem : 13 ∈ targets := by decide
  have hlatest : ∀ target ∈ targets, target ≤ 13 := by simp [targets]
  obtain ⟨hrun, hfinal, -⟩ := run_clocks_eq_clock_latest timer targets 13 hcycles htargets hmem hlatest
  exact ⟨hcycles, htargets, hmem, hlatest, hrun, hfinal⟩

end Microcontroller.Timer
