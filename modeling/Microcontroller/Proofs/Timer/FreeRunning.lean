import Microcontroller.Proofs.Timer.Prescaler

namespace Microcontroller.Timer

section Free

variable {timer : Timer} {target : BitVec 64} {block : Block} {counts : Nat}
  (htarget : target.toNat ≤ 2 ^ 64 - 2) (hfree : block.clearing (timer.counter block) = none)
  (hcounts : (timer.moves (.clock target)).count (.step block) = counts)

include htarget hfree hcounts

theorem counter_clock_free : (timer.clock target).1.counter block = (timer.counter block).steps none counts := by
  rw [counter_clock htarget, hfree, hcounts]

theorem isSet_clock_free (event : TimerEvent) :
    (timer.clock target).1.isSet block event = true ↔
      timer.isSet block event = true ∨ (timer.counter block).wait event < counts := by
  rw [isSet_eq, isSet_eq, counter_clock_free htarget hfree hcounts]
  exact Counter.isSet_steps_none block.firstFlag_le_five _ event counts

theorem requestsFor_clock_free (event : TimerEvent) :
    requestsFor block event (timer.clock target).2.toList =
      List.replicate
        (if timer.isEnabled block event then
          if timer.isSet block event then counts else counts - (timer.counter block).wait event
        else 0)
        ⟨block.source event, true⟩ := by
  rw [requestsFor_clock htarget, hfree, hcounts, Counter.countsSet_none block.firstFlag_le_five, isSet_eq]

end Free

/-- What catching up leaves in a block that counts `counts` times on the way, when nothing restarts it. -/
structure FreeRun (timer : Timer) (target : BitVec 64) (block : Block) (counts : Nat) : Prop where
  replayed : timer.replay (timer.moves (.clock target)) = timer.perform (.clock target)
  cycles : (timer.clock target).1.cycles.toNat = max timer.cycles.toNat ((target.toNat + 1) / 2)
  caughtUp : (timer.clock target).1.isBehind target = false
  counted : (timer.moves (.clock target)).count (.step block) = counts
  count : ((timer.clock target).1.counter block).count.toNat =
    ((timer.counter block).count.toNat + counts) % 2 ^ block.width
  overflow : (timer.clock target).1.isSet block .overflow = true ↔
    timer.isSet block .overflow = true ∨ 2 ^ block.width ≤ (timer.counter block).count.toNat + counts
  compareA : (timer.clock target).1.isSet block .compareA = true ↔
    timer.isSet block .compareA = true ∨
      ((timer.counter block).compareA - (timer.counter block).count).toNat < counts
  compareB : (timer.clock target).1.isSet block .compareB = true ↔
    timer.isSet block .compareB = true ∨
      ((timer.counter block).compareB - (timer.counter block).count).toNat < counts
  registers : (timer.clock target).1.counter block =
    { timer.counter block with
      count := ((timer.clock target).1.counter block).count
      status := ((timer.clock target).1.counter block).status }
  status : ∀ i < 8, (∀ event, block.flagBit event ≠ i) →
    ((timer.clock target).1.counter block).status.getLsbD i = (timer.counter block).status.getLsbD i
  capture : ∀ number, ((timer.clock target).1.channel number).capture = (timer.channel number).capture
  requestsAt : ∀ done move rest event, timer.moves (.clock target) = done ++ move :: rest →
    let stepped := (timer.replay done).1.apply move
    requestsFor block event stepped.2 =
      if move = .step block ∧ timer.isEnabled block event = true ∧ stepped.1.isSet block event = true then
        [⟨block.source event, true⟩]
      else []
  requests : ∀ event, requestsFor block event (timer.clock target).2.toList =
    List.replicate
      (if timer.isEnabled block event then
        if timer.isSet block event then counts else counts - (timer.counter block).wait event
      else 0)
      ⟨block.source event, true⟩
  overflowRequests : timer.isEnabled block .overflow = true → timer.isSet block .overflow = false →
    requestsFor block .overflow (timer.clock target).2.toList =
      List.replicate (counts - (2 ^ block.width - 1 - (timer.counter block).count.toNat))
        ⟨block.source .overflow, true⟩

theorem clock_free_running (timer : Timer) (target : BitVec 64) (block : Block)
    (hcycles : timer.cycles.toNat < 2 ^ 63) (htarget : target.toNat ≤ 2 ^ 64 - 2)
    (hfree : block.clearing (timer.counter block) = none) :
    let first := timer.cycles.toNat
    let last := max first ((target.toNat + 1) / 2)
    let period := block.mask timer.revision (timer.counter block).control + 1
    FreeRun timer target block ((last + period - 1) / period - (first + period - 1) / period) := by
  intro first last period
  generalize hk : (last + period - 1) / period - (first + period - 1) / period = counts
  have hcounts : (timer.moves (.clock target)).count (.step block) = counts := by
    rw [count_moves_clock_eq htarget, period_eq_mask]
    exact hk
  have hafter := counter_clock_free htarget hfree hcounts
  have hset := isSet_clock_free htarget hfree hcounts
  have hrequests := requestsFor_clock_free htarget hfree hcounts
  exact {
    replayed := replay_moves timer _
    cycles := cycles_clock htarget timer
    caughtUp := isBehind_clock hcycles htarget
    counted := hcounts
    count := by
      rw [hafter]
      exact Counter.toNat_count_steps_none _ counts
    overflow := by
      have hlt := (timer.counter block).count.isLt
      have hreached : (timer.counter block).wait .overflow < counts ↔
          2 ^ block.width ≤ (timer.counter block).count.toNat + counts := by
        rw [Counter.wait_overflow]
        omega
      rw [← hreached]
      exact hset .overflow
    compareA := hset .compareA
    compareB := hset .compareB
    registers := by
      rw [hafter]
      exact Counter.steps_eq _ none counts
    status := by
      intro i hi hflag
      rw [hafter]
      apply Counter.getLsbD_status_steps _ none counts hi
      intro event
      rw [Block.firstFlag_add_rank]
      exact hflag event
    capture := capture_clock htarget timer
    requestsAt := fun _ _ _ event hsplit => requestsFor_clock_move htarget timer block event hsplit
    requests := hrequests
    overflowRequests := by
      intro henabled hclear
      rw [hrequests, henabled, hclear, Counter.wait_overflow]
      rfl }

theorem clock_free_running_overflow :
    let wide := (new .generic).setCounter 2 { (Counter.new : Counter 16 4) with control := 0x13, count := 0xFFFD }
    let narrow := { new .mk1 with byteTimer := { (Counter.new : ByteTimer) with control := 0x25, count := 0xFE } }
    let slow := { new .mk1 with byteTimer := { (Counter.new : ByteTimer) with control := 0x23, count := 0xFE } }
    let channel := Block.channel 2
    (wide.cycles.toNat < 2 ^ 63 ∧ narrow.cycles.toNat < 2 ^ 63 ∧ slow.cycles.toNat < 2 ^ 63) ∧
      (82 : BitVec 64).toNat ≤ 2 ^ 64 - 2 ∧
      channel.clearing (wide.counter channel) = none ∧
      Block.byteTimer.clearing (narrow.counter .byteTimer) = none ∧
      Block.byteTimer.clearing (slow.counter .byteTimer) = none ∧
      ((wide.clock 82).1.counter channel).count.toNat = 18 ∧
      requestsFor channel .overflow (wide.clock 82).2.toList = List.replicate 19 ⟨.channel 2 .overflow, true⟩ ∧
      ((narrow.clock 82).1.counter .byteTimer).count.toNat = 9 ∧
      requestsFor .byteTimer .overflow (narrow.clock 82).2.toList =
        List.replicate 10 ⟨.byteTimer .overflow, true⟩ ∧
      ((slow.clock 82).1.counter .byteTimer).count.toNat = 255 ∧
      requestsFor .byteTimer .overflow (slow.clock 82).2.toList = [] := by
  intro wide narrow slow channel
  have hcycles : wide.cycles.toNat < 2 ^ 63 ∧ narrow.cycles.toNat < 2 ^ 63 ∧ slow.cycles.toNat < 2 ^ 63 := by decide
  have htarget : (82 : BitVec 64).toNat ≤ 2 ^ 64 - 2 := by decide
  have hwide : channel.clearing (wide.counter channel) = none := by decide
  have hnarrow : Block.byteTimer.clearing (narrow.counter .byteTimer) = none := by decide
  have hslow : Block.byteTimer.clearing (slow.counter .byteTimer) = none := by decide
  have everySecond := clock_free_running wide 82 channel hcycles.1 htarget hwide
  have everyFourth := clock_free_running narrow 82 .byteTimer hcycles.2.1 htarget hnarrow
  have once := clock_free_running slow 82 .byteTimer hcycles.2.2 htarget hslow
  exact ⟨hcycles, htarget, hwide, hnarrow, hslow, everySecond.count.trans (by decide),
    (everySecond.overflowRequests (by decide) (by decide)).trans (by decide), everyFourth.count.trans (by decide),
    (everyFourth.overflowRequests (by decide) (by decide)).trans (by decide), once.count.trans (by decide),
    (once.overflowRequests (by decide) (by decide)).trans (by decide)⟩

end Microcontroller.Timer
