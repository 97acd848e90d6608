import Microcontroller.Proofs.Timer.FlagProtocol

namespace Microcontroller

namespace Counter

section WriteBack

variable {width firstFlag : Nat} (hfirst : 4 ≤ firstFlag) (hlast : firstFlag ≤ 5) (counter : Counter width firstFlag)
  (data : Byte)

include hfirst in
theorem getLsbD_status_writeStatus_low {i : Nat} (hi : i < 4) :
    (counter.writeStatus data).1.status.getLsbD i = data.getLsbD i := by
  have hkept (events : List TimerEvent) : (~~~flags firstFlag events).getLsbD i = true := by
    have hclear : (flags firstFlag events).getLsbD i = false := by
      rw [Bool.eq_false_iff, ne_eq, getLsbD_flags _ _ _ (by omega)]
      rintro ⟨event, -, h⟩
      omega
    rw [BitVec.getLsbD_not, hclear, decide_eq_true (by omega)]
    rfl
  change BitVec.getLsbD ((_ &&& (0xF0 : Byte) ||| _ &&& (0x0F : Byte)) &&& _) _ = _
  rw [BitVec.getLsbD_and, hkept, getLsbD_nibbles _ _ _ (by omega), if_neg (by omega), Bool.and_true]

include hfirst hlast in
theorem isSet_writeBack (event : TimerEvent) :
    (counter.readStatus.2.writeStatus data).1.isSet event =
      (counter.isSet event && data.getLsbD (firstFlag + event.rank)) := by
  rw [isSet_writeStatus hfirst hlast, isSeen_readStatus hlast]
  change (counter.isSet event && _) = _
  cases counter.isSet event <;> simp

include hlast in
theorem acknowledged_writeBack (hseen : ∀ event, counter.isSeen event = true → counter.isSet event = true) :
    (counter.readStatus.2.writeStatus data).2 =
      TimerEvent.all.filter fun event => counter.isSet event && !data.getLsbD (firstFlag + event.rank) := by
  refine (rfl : _ = TimerEvent.all.filter fun event =>
    !data.getLsbD (firstFlag + event.rank) && counter.readStatus.2.isSeen event).trans (List.filter_congr fun event _ => ?_)
  rw [isSeen_readStatus hlast, Bool.and_comm]
  cases hset : counter.isSet event with
  | true => rw [Bool.or_true]
  | false =>
    -- A flag that is clear has not been seen set, so the write leaves it clear.
    have hunseen : counter.isSeen event = false := by
      rw [Bool.eq_false_iff]
      intro h
      exact Bool.noConfusion (hset.symm.trans (hseen event h))
    rw [hunseen]
    rfl

end WriteBack

end Counter

namespace Timer

open Interrupt (Request)

def putCounter (timer : Timer) : (block : Block) → Counter block.width block.firstFlag → Timer
  | .channel number, counter => timer.setCounter number counter
  | .byteTimer, counter => { timer with byteTimer := counter }

section PutCounter

variable (timer : Timer) {block : Block}

theorem counter_putCounter (counter : Counter block.width block.firstFlag) :
    (timer.putCounter block counter).counter block = counter := by
  cases block with
  | channel number => exact counter_setChannel_self timer number _
  | byteTimer => rfl

theorem counter_putCounter_of_ne {other : Block} (h : other ≠ block) (counter : Counter block.width block.firstFlag) :
    (timer.putCounter block counter).counter other = timer.counter other := by
  cases block with
  | channel number =>
    cases other with
    | channel number' => exact counter_setChannel_of_ne timer (fun hnumber => h (congrArg Block.channel hnumber.symm)) _
    | byteTimer => rfl
  | byteTimer =>
    cases other with
    | channel number => rfl
    | byteTimer => exact absurd rfl h

theorem putCounter_putCounter (counter counter' : Counter block.width block.firstFlag) :
    (timer.putCounter block counter).putCounter block counter' = timer.putCounter block counter' := by
  cases block with
  | channel number =>
    simp [putCounter, setCounter, setChannel, Timer.channel]
  | byteTimer => rfl

end PutCounter

theorem readPort_status (timer : Timer) (block : Block) :
    timer.readPort block.port block.statusAddress =
      ((timer.counter block).status, timer.putCounter block (timer.counter block).readStatus.2) := by
  cases block with
  | channel number =>
    change timer.readChannel _ = _
    rw [readChannel, locate?_eq_status.mpr rfl]
    rfl
  | byteTimer => rfl

theorem writePort_status (timer : Timer) (block : Block) (data : Byte) :
    timer.writePort block.port block.statusAddress data =
      (timer.putCounter block ((timer.counter block).writeStatus data).1,
        block.requests ((timer.counter block).writeStatus data).2 false) := by
  cases block with
  | channel number =>
    change timer.writeChannel _ data = _
    rw [writeChannel, locate?_eq_status.mpr rfl]
    rfl
  | byteTimer => rfl

theorem isSet_of_isSeen (revision : Revision) (commands : List Command) (block : Block) (event : TimerEvent) :
    let timer := ((new revision).run commands).1
    timer.isSeen block event = true → timer.isSet block event = true := by
  intro timer hseen
  have hshows := shows_replay ((new revision).history commands) (shows_new revision block event)
  rw [replay_history] at hshows
  have hread := of_decide_eq_true (hshows.seen.symm.trans hseen)
  rw [hshows.set, hread]
  rfl

end Timer

end Microcontroller
