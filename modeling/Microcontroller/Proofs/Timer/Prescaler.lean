import Microcontroller.Proofs.Timer.BlockSteps

namespace Microcontroller.Timer

/-- The prescaler masks in the order of the clock selects. -/
def Block.masks : Block → Revision → List Nat
  | .channel _, .generic => [3, 7, 31, 1]
  | .channel _, .mk1 => [3, 7, 31, 3]
  | .byteTimer, .generic => [0, 7, 63, 1023, 0, 1, 1, 1]
  | .byteTimer, .mk1 => [0, 7, 63, 1023, 0, 3, 3, 3]

def Block.select : Block → (control : Byte) → Nat
  | .channel _, control => (control &&& 0x03).toNat
  | .byteTimer, control => (control &&& 0x07).toNat

def Block.mask (block : Block) (revision : Revision) (control : Byte) : Nat :=
  (block.masks revision).getD (block.select control) 0

theorem period_eq_mask (timer : Timer) (block : Block) :
    timer.period block = block.mask timer.revision (timer.counter block).control + 1 := by
  have hchannel : ∀ (revision : Revision) (control : Byte),
      (Channel.periods revision)[(control.setWidth 2).toNat] = (Block.channel 0).mask revision control + 1 := by
    intro revision
    cases revision <;> decide
  have hbyteTimer : ∀ (revision : Revision) (control : Byte),
      (ByteTimer.periods revision)[(control.setWidth 3).toNat] = Block.byteTimer.mask revision control + 1 := by
    intro revision
    cases revision <;> decide
  cases block with
  | channel number =>
    have htable : (Block.channel number).mask timer.revision = (Block.channel 0).mask timer.revision := by
      cases timer.revision <;> rfl
    rw [htable]
    exact hchannel timer.revision (timer.channel number).counter.control
  | byteTimer => exact hbyteTimer timer.revision timer.byteTimer.control

theorem Block.mask_add_one (block : Block) (revision : Revision) (control : Byte) :
    ∃ e, e ≤ 10 ∧ block.mask revision control + 1 = 2 ^ e := by
  have hselect : ∀ mask ∈ block.masks revision, ∃ e, e ≤ 10 ∧ mask + 1 = 2 ^ e := by
    cases block <;> cases revision <;> simp only [masks] <;> decide
  unfold mask
  rw [List.getD_eq_getElem?_getD]
  cases h : (block.masks revision)[block.select control]? with
  | none => exact ⟨0, Nat.zero_le _, rfl⟩
  | some mask => exact hselect mask (List.mem_of_getElem? h)

theorem period_eq_two_pow (timer : Timer) (block : Block) : ∃ e, e ≤ 10 ∧ timer.period block = 2 ^ e := by
  rw [period_eq_mask]
  exact block.mask_add_one timer.revision _

theorem period_pos (timer : Timer) (block : Block) : 0 < timer.period block := by
  obtain ⟨e, -, hperiod⟩ := timer.period_eq_two_pow block
  rw [hperiod]
  exact Nat.two_pow_pos e

theorem fires_eq_mask (timer : Timer) (block : Block) :
    timer.fires block =
      (timer.cycles &&& BitVec.ofNat 64 (block.mask timer.revision (timer.counter block).control) == 0) := by
  obtain ⟨e, he, hperiod⟩ := timer.period_eq_two_pow block
  have hmask : block.mask timer.revision (timer.counter block).control = 2 ^ e - 1 := by
    rw [← hperiod, period_eq_mask, Nat.add_sub_cancel]
  have hlt : 2 ^ e - 1 < 2 ^ 64 := by
    have hpow : 2 ^ e ≤ 2 ^ 10 := Nat.pow_le_pow_right (by decide) he
    omega
  rw [Bool.eq_iff_iff, fires, beq_iff_eq, beq_iff_eq, ← BitVec.toNat_inj, BitVec.toNat_and, BitVec.toNat_ofNat,
    hperiod, hmask, Nat.mod_eq_of_lt hlt, Nat.and_two_pow_sub_one_eq_mod]
  rfl

theorem countP_multiples {period : Nat} (h : 0 < period) (first n : Nat) :
    ((List.range' first n).countP fun cycle => cycle % period == 0) =
      (first + n + period - 1) / period - (first + period - 1) / period := by
  induction n with
  | zero => simp
  | succ n ih =>
    have hmono : (first + period - 1) / period ≤ (first + n + period - 1) / period :=
      Nat.div_le_div_right (by omega)
    have hnext : first + (n + 1) + period - 1 = first + n + period - 1 + 1 := by omega
    have hlast : first + n + period - 1 + 1 = first + n + period := by omega
    rw [List.range'_concat, List.countP_append, ih, List.countP_singleton, Nat.one_mul, hnext, Nat.succ_div, hlast]
    simp only [Nat.dvd_iff_mod_eq_zero, Nat.add_mod_right, beq_iff_eq]
    exact (Nat.sub_add_comm hmono).symm

theorem count_all (block : Block) : Block.all.count block = 1 := by
  cases block with
  | channel number =>
    revert number
    decide
  | byteTimer => rfl

theorem count_tickMoves (timer : Timer) (block : Block) :
    timer.tickMoves.count (.step block) = if timer.fires block then 1 else 0 := by
  have hstep (other : Block) : (Move.step other == .step block) = (other == block) := by
    rw [Bool.eq_iff_iff, beq_iff_eq, beq_iff_eq]
    exact ⟨Move.step.inj, congrArg Move.step⟩
  have hfires (other : Block) : (other == block && timer.fires other) = (other == block && timer.fires block) := by
    by_cases h : other = block
    · rw [h]
    · rw [beq_eq_false_iff_ne.mpr h, Bool.false_and, Bool.false_and]
  have helapse : [Move.elapse].count (.step block) = 0 := rfl
  rw [tickMoves, List.count_append, helapse, List.count, List.countP_map, List.countP_filter]
  simp only [Function.comp_def, hstep, hfires]
  cases timer.fires block with
  | false => simp
  | true =>
    simp only [Bool.and_true]
    exact count_all block

theorem period_tick (timer : Timer) (block : Block) : timer.tick.1.period block = timer.period block := by
  rw [← replay_tickMoves]
  exact period_replay timer block fun move => isClock_of_mem_tickMoves

theorem count_cycleMoves (timer : Timer) (block : Block) {n : Nat} (h : timer.cycles.toNat + n < 2 ^ 64) :
    (cycleMoves n timer).count (.step block) =
      (List.range' timer.cycles.toNat n).countP fun cycle => cycle % timer.period block == 0 := by
  induction n generalizing timer with
  | zero => rfl
  | succ n ih =>
    have hnext := timer.cycles_tick (by omega)
    rw [cycleMoves, List.count_append, count_tickMoves, ih _ (by omega), hnext, period_tick, List.range'_succ,
      List.countP_cons, Nat.add_comm]
    rfl

section Clock

variable {target : BitVec 64} (htarget : target.toNat ≤ 2 ^ 64 - 2) (timer : Timer) (block : Block)

include htarget

theorem isClock_of_mem_moves_clock : ∀ move ∈ timer.moves (.clock target), move.isClock = true := by
  rw [moves_clock htarget]
  exact fun move => isClock_of_mem_cycleMoves

theorem count_moves_clock : (timer.moves (.clock target)).count (.step block) =
    (List.range' timer.cycles.toNat (reach target - timer.cycles.toNat)).countP
      fun cycle => cycle % timer.period block == 0 := by
  have hreach := reach_lt htarget
  have hcycles := timer.cycles.isLt
  rw [moves_clock htarget, count_cycleMoves timer block (by omega)]

theorem count_moves_clock_eq : (timer.moves (.clock target)).count (.step block) =
    (max timer.cycles.toNat (reach target) + timer.period block - 1) / timer.period block -
      (timer.cycles.toNat + timer.period block - 1) / timer.period block := by
  have hlast : timer.cycles.toNat + (reach target - timer.cycles.toNat) = max timer.cycles.toNat (reach target) := by
    omega
  rw [count_moves_clock htarget, countP_multiples (timer.period_pos block), hlast]

theorem counter_clock : (timer.clock target).1.counter block =
    (timer.counter block).steps (block.clearing (timer.counter block))
      ((timer.moves (.clock target)).count (.step block)) := by
  rw [← counter_replay timer block (isClock_of_mem_moves_clock htarget timer), replay_moves]
  rfl

theorem capture_clock (number : Fin 3) :
    ((timer.clock target).1.channel number).capture = (timer.channel number).capture := by
  have hreplay := capture_replay timer (isClock_of_mem_moves_clock htarget timer) number
  rwa [replay_moves] at hreplay

theorem requestsFor_clock (event : TimerEvent) :
    requestsFor block event (timer.clock target).2.toList =
      List.replicate
        (if timer.isEnabled block event then
          (timer.counter block).countsSet (block.clearing (timer.counter block)) event
            ((timer.moves (.clock target)).count (.step block))
        else 0)
        ⟨block.source event, true⟩ := by
  have hreplay := requestsFor_replay timer block (isClock_of_mem_moves_clock htarget timer) event
  rwa [replay_moves] at hreplay

theorem requestsFor_clock_move (event : TimerEvent) {done rest : List Move} {move : Move}
    (hsplit : timer.moves (.clock target) = done ++ move :: rest) :
    requestsFor block event ((timer.replay done).1.apply move).2 =
      if move = .step block ∧ timer.isEnabled block event = true ∧
          ((timer.replay done).1.apply move).1.isSet block event = true then
        [⟨block.source event, true⟩]
      else [] := by
  have hclock : ∀ other ∈ done ++ move :: rest, other.isClock = true :=
    hsplit ▸ isClock_of_mem_moves_clock htarget timer
  have hmove := hclock move (List.mem_append_right done List.mem_cons_self)
  have henabled : (timer.replay done).1.isEnabled block event = timer.isEnabled block event := by
    apply isEnabled_replay
    exact fun other hother => hclock other (List.mem_append_left _ hother)
  rw [requestsFor_apply_clock _ block hmove event, henabled]

end Clock

end Microcontroller.Timer
