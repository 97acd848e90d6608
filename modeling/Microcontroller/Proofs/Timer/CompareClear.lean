import Microcontroller.Proofs.Timer.Prescaler

namespace Microcontroller.Timer

section Limit

variable {timer : Timer} {target : BitVec 64} {block : Block} {comparator : Comparator}
  (htarget : target.toNat ≤ 2 ^ 64 - 2)
  (hclearing : block.clearing (timer.counter block) = some comparator)

include htarget hclearing

theorem counter_clock_limit : (timer.clock target).1.counter block =
    (timer.counter block).steps (some comparator) ((timer.moves (.clock target)).count (.step block)) := by
  rw [counter_clock htarget, hclearing]

theorem below_limit_of_split (h : (timer.counter block).count ≤ (timer.counter block).limit comparator)
    {done rest : List Move} (hsplit : timer.moves (.clock target) = done ++ rest) :
    ((timer.replay done).1.counter block).count ≤ (timer.counter block).limit comparator ∧
      (timer.replay done).1.isSet block .overflow = timer.isSet block .overflow := by
  have hclock : ∀ move ∈ done, move.isClock = true := by
    intro move hmove
    apply isClock_of_mem_moves_clock htarget timer
    rw [hsplit]
    exact List.mem_append_left rest hmove
  have hcurrent : (timer.replay done).1.counter block =
      (timer.counter block).steps (some comparator) (done.count (.step block)) := by
    rw [← hclearing]
    exact counter_replay timer block hclock
  rw [isSet_eq, isSet_eq, hcurrent]
  exact ⟨Counter.count_steps_le h _, Counter.isSet_overflow_steps block.firstFlag_le_five h _⟩

end Limit

/-- What `counts` counts leave in a block that starts no further than the compare value that restarts it. -/
structure PeriodicRun (timer : Timer) (target : BitVec 64) (block : Block) (comparator : Comparator)
    (counts : Nat) : Prop where
  count : ((timer.clock target).1.counter block).count.toNat =
    ((timer.counter block).count.toNat + counts) % (((timer.counter block).limit comparator).toNat + 1)
  bounded : ∀ done rest, timer.moves (.clock target) = done ++ rest →
    ((timer.replay done).1.counter block).count ≤ (timer.counter block).limit comparator
  noOverflow : ∀ done rest, timer.moves (.clock target) = done ++ rest →
    (timer.replay done).1.isSet block .overflow = timer.isSet block .overflow
  overflow : (timer.clock target).1.isSet block .overflow = timer.isSet block .overflow
  matched : (timer.clock target).1.isSet block comparator.event = true ↔
    timer.isSet block comparator.event = true ∨
      ((timer.counter block).limit comparator).toNat - (timer.counter block).count.toNat < counts

structure LateRun (timer : Timer) (target : BitVec 64) (block : Block) (comparator : Comparator)
    (counts : Nat) : Prop where
  rising : counts ≤ 2 ^ block.width - 1 - (timer.counter block).count.toNat →
    ((timer.clock target).1.counter block).count.toNat = (timer.counter block).count.toNat + counts
  wrapped : 2 ^ block.width - 1 - (timer.counter block).count.toNat < counts →
    ((timer.clock target).1.counter block).count.toNat =
      (counts - (2 ^ block.width - (timer.counter block).count.toNat)) %
        (((timer.counter block).limit comparator).toNat + 1)
  overflow : 2 ^ block.width - 1 - (timer.counter block).count.toNat < counts →
    (timer.clock target).1.isSet block .overflow = true

structure LimitedRun (timer : Timer) (target : BitVec 64) (block : Block) (comparator : Comparator)
    (counts : Nat) : Prop where
  replayed : timer.replay (timer.moves (.clock target)) = timer.perform (.clock target)
  caughtUp : (timer.clock target).1.isBehind target = false
  counted : (timer.moves (.clock target)).count (.step block) = counts
  below : (timer.counter block).count ≤ (timer.counter block).limit comparator →
    PeriodicRun timer target block comparator counts
  above : (timer.counter block).limit comparator < (timer.counter block).count →
    LateRun timer target block comparator counts

theorem clock_compare_clear (timer : Timer) (target : BitVec 64) (block : Block) (comparator : Comparator)
    (hcycles : timer.cycles.toNat < 2 ^ 63) (htarget : target.toNat ≤ 2 ^ 64 - 2)
    (hclearing : block.clearing (timer.counter block) = some comparator) :
    let first := timer.cycles.toNat
    let last := max first ((target.toNat + 1) / 2)
    let period := block.mask timer.revision (timer.counter block).control + 1
    LimitedRun timer target block comparator
      ((List.range' first (last - first)).countP fun cycle => cycle % period == 0) := by
  intro first last period
  have hlast : last - first = reach target - first := by
    change max first (reach target) - first = _
    omega
  have hcounts : (timer.moves (.clock target)).count (.step block) =
      (List.range' first (last - first)).countP fun cycle => cycle % period == 0 := by
    rw [hlast, count_moves_clock htarget, period_eq_mask]
  generalize (List.range' first (last - first)).countP _ = counts at hcounts
  have hafter : (timer.clock target).1.counter block = (timer.counter block).steps (some comparator) counts := by
    rw [← hcounts]
    exact counter_clock_limit htarget hclearing
  have hset (event : TimerEvent) : (timer.clock target).1.isSet block event =
      ((timer.counter block).steps (some comparator) counts).isSet event := by
    rw [isSet_eq, hafter]
  refine ⟨replay_moves timer _, isBehind_clock hcycles htarget, hcounts, ?_, ?_⟩
  · intro hbelow
    exact {
      count := by
        rw [hafter]
        exact Counter.toNat_count_steps_some hbelow counts
      bounded := fun _ _ hsplit => (below_limit_of_split htarget hclearing hbelow hsplit).1
      noOverflow := fun _ _ hsplit => (below_limit_of_split htarget hclearing hbelow hsplit).2
      overflow := by
        rw [hset, isSet_eq]
        exact Counter.isSet_overflow_steps block.firstFlag_le_five hbelow counts
      matched := by
        rw [hset, isSet_eq]
        exact Counter.isSet_limit_steps block.firstFlag_le_five hbelow counts }
  · intro habove
    have hwidth := (timer.counter block).count.isLt
    have hmore (hwrapped : 2 ^ block.width - 1 - (timer.counter block).count.toNat < counts) :
        ∃ more, counts = 2 ^ block.width - (timer.counter block).count.toNat + more :=
      ⟨counts - (2 ^ block.width - (timer.counter block).count.toNat), by omega⟩
    exact {
      rising := by
        rw [hafter]
        exact Counter.toNat_count_steps_rise habove
      wrapped := by
        intro hwrapped
        obtain ⟨more, hmore⟩ := hmore hwrapped
        rw [hafter, hmore, Nat.add_sub_cancel_left]
        exact Counter.toNat_count_steps_wrap habove more
      overflow := by
        intro hwrapped
        obtain ⟨more, hmore⟩ := hmore hwrapped
        rw [hset, hmore]
        exact Counter.isSet_overflow_wrap block.firstFlag_le_five habove more }

theorem clock_compare_clear_both_starts :
    let low := (new .generic).setCounter 0 { (Counter.new : Counter 16 4) with status := 0x01, compareA := 2 }
    let high := { new .generic with
      byteTimer := { (Counter.new : ByteTimer) with control := 0x15, count := 0xFE, compareB := 2 } }
    let channel := Block.channel 0
    low.cycles.toNat < 2 ^ 63 ∧ high.cycles.toNat < 2 ^ 63 ∧ (26 : BitVec 64).toNat ≤ 2 ^ 64 - 2 ∧
      channel.clearing (low.counter channel) = some .a ∧ Block.byteTimer.clearing (high.counter .byteTimer) = some .b ∧
      ((low.clock 26).1.counter channel).count.toNat = 1 ∧ (low.clock 26).1.isSet channel .compareA = true ∧
      ((high.clock 26).1.counter .byteTimer).count.toNat = 2 ∧ (high.clock 26).1.isSet .byteTimer .overflow = true := by
  intro low high channel
  have hlow : low.cycles.toNat < 2 ^ 63 := by decide
  have hhigh : high.cycles.toNat < 2 ^ 63 := by decide
  have htarget : (26 : BitVec 64).toNat ≤ 2 ^ 64 - 2 := by decide
  have hchannel : channel.clearing (low.counter channel) = some .a := by decide
  have hbyteTimer : Block.byteTimer.clearing (high.counter .byteTimer) = some .b := by decide
  have periodic := (clock_compare_clear low 26 channel .a hlow htarget hchannel).below (by decide)
  have late := (clock_compare_clear high 26 .byteTimer .b hhigh htarget hbyteTimer).above (by decide)
  exact ⟨hlow, hhigh, htarget, hchannel, hbyteTimer, periodic.count.trans (by decide),
    periodic.matched.mpr (by decide), (late.wrapped (by decide)).trans (by decide), late.overflow (by decide)⟩

end Microcontroller.Timer
