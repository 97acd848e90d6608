import Microcontroller.Processor.Access
import Microcontroller.Proofs.Board.TimerWindow
import Microcontroller.Proofs.Timer.Moves

/-!
The latch between the two bytes of a wide register. Nothing but an access to a high byte changes it, so the second
access of a pair completes the first one, whatever lies between them.
-/

namespace Microcontroller

theorem Channel.get_set (channel : Channel) (value : Word) (register other : WideRegister) :
    (channel.set value register).get other = if other = register then value else channel.get other := by
  cases register <;> cases other <;> rfl

namespace Timer

def Command.SparesLatch : Command → Prop
  | .write .channels a _ | .read .channels a => ∀ number register, a ≠ registerAddress number (.high register)
  | _ => True

theorem channel_setChannel (timer : Timer) (number other : Fin 3) (channel : Channel) :
    (timer.setChannel number channel).channel other = if other = number then channel else timer.channel other := by
  by_cases h : other = number
  · subst h
    simp [Timer.channel, setChannel]
  · have hne : number.val ≠ other.val := fun hval => h (Fin.ext hval.symm)
    simp [Timer.channel, setChannel, Vector.getElem_set_ne, hne, h]

theorem latch_advance (target : BitVec 64) (fuel : Nat) (timer : Timer) (requests : Array Interrupt.Request) :
    (advance target fuel timer requests).1.latch = timer.latch := by
  induction fuel generalizing timer requests with
  | zero => rfl
  | succ fuel ih =>
    rw [advance]
    split
    · exact ih timer.tick.1 _
    · rfl

theorem latch_perform (timer : Timer) {command : Command} (h : command.SparesLatch) :
    (timer.perform command).1.latch = timer.latch := by
  cases command with
  | write port a data =>
    cases port with
    | channels =>
      change (timer.writeChannel a data).1.latch = _
      unfold writeChannel
      split
      next number hlocate => rfl
      next number hlocate => rfl
      next number register hlocate => exact absurd (locate?_eq_some.mp hlocate) (h number register)
      next => rfl
      next => rfl
    | byteTimer => rfl
  | read port a =>
    cases port with
    | channels =>
      change (timer.readChannel a).2.latch = _
      unfold readChannel
      split
      next => rfl
      next => rfl
      next number register hlocate => exact absurd (locate?_eq_some.mp hlocate) (h number register)
      next => rfl
      next => rfl
    | byteTimer => rfl
  | clock target => exact latch_advance target _ timer #[]

theorem latch_run (timer : Timer) {commands : List Command} (h : ∀ command ∈ commands, command.SparesLatch) :
    (timer.run commands).1.latch = timer.latch := by
  induction commands generalizing timer with
  | nil => rfl
  | cons command commands ih =>
    have hhead := timer.latch_perform (h command List.mem_cons_self)
    have htail := ih (timer.perform command).1 fun other hother => h other (List.mem_cons_of_mem command hother)
    exact htail.trans hhead

section Access

variable (timer : Timer) (number : Fin 3) (register : WideRegister)

theorem readChannel_high :
    let value := (timer.channel number).get register
    timer.readChannel (registerAddress number (.high register)) =
      (highByte value, { timer with latch := lowByte value }) := by
  rw [readChannel, locate?_registerAddress]

theorem readChannel_low :
    timer.readChannel (registerAddress number (.low register)) = (timer.latch, timer) := by
  rw [readChannel, locate?_registerAddress]

theorem writeChannel_high (data : Byte) :
    timer.writeChannel (registerAddress number (.high register)) data = ({ timer with latch := data }, []) := by
  rw [writeChannel, locate?_registerAddress]

theorem writeChannel_low (data : Byte) :
    timer.writeChannel (registerAddress number (.low register)) data =
      (timer.setChannel number ((timer.channel number).set (wordOf timer.latch data) register), []) := by
  rw [writeChannel, locate?_registerAddress]

end Access

theorem get_setChannel_set (timer : Timer) (number other : Fin 3) (register another : WideRegister) (value : Word) :
    ((timer.setChannel number ((timer.channel number).set value register)).channel other).get another =
      if other = number ∧ another = register then value else (timer.channel other).get another := by
  rw [channel_setChannel]
  by_cases h : other = number
  · subst h
    simp only [if_true, Channel.get_set, true_and]
  · simp only [h, if_false, false_and]

theorem controls_setChannel_set (timer : Timer) (number other : Fin 3) (register : WideRegister) (value : Word) :
    let counter := (timer.channel other).counter
    let counter' := ((timer.setChannel number ((timer.channel number).set value register)).channel other).counter
    counter'.control = counter.control ∧ counter'.status = counter.status ∧ counter'.seen = counter.seen := by
  rw [channel_setChannel]
  by_cases h : other = number
  · subst h
    rw [if_pos rfl]
    cases register <;> exact ⟨rfl, rfl, rfl⟩
  · rw [if_neg h]
    exact ⟨rfl, rfl, rfl⟩

end Timer

namespace Board

open Timer (registerAddress)

theorem window_bytes (number : Fin 3) (register : WideRegister) :
    evenAddress (window number (.high register)) = window number (.high register) ∧
      oddAddress (window number (.high register)) = window number (.low register) := by
  cases register <;> decide +revert

theorem writeWord_window {board : Board} (h : board.timerMapped = true) (number : Fin 3) (register : WideRegister)
    (value : Word) (p : Processor) :
    let result := ((Routine.writeWord (window number (.high register)) value).run p).run board
    result.1 = ((), p) ∧ result.2.timerMapped = true ∧
      (result.2.timer.channel number).get register = value := by
  obtain ⟨heven, hodd⟩ := window_bytes number register
  obtain ⟨hhigh, hmapped⟩ := write_window h number (.high register) (highByte value)
  obtain ⟨hlow, hmapped'⟩ := write_window hmapped number (.low register) (lowByte value)
  rw [Timer.writeChannel_high] at hhigh
  rw [hhigh, Timer.writeChannel_low, wordOf_bytes] at hlow
  rw [Routine.run_writeWord, heven, hodd]
  refine ⟨rfl, hmapped', ?_⟩
  rw [Dialogue.run_write, Dialogue.run_write]
  change (((board.write (window number (.high register)) (highByte value)).write
    (window number (.low register)) (lowByte value)).timer.channel number).get register = value
  rw [hlow, Timer.get_setChannel_set, if_pos ⟨rfl, rfl⟩]

theorem readWord_window {board : Board} (h : board.timerMapped = true) (number : Fin 3) (register : WideRegister)
    (p : Processor) :
    let value := (board.timer.channel number).get register
    (((Routine.readWord (window number (.high register))).run p).run board).1 = (value, p) := by
  obtain ⟨heven, hodd⟩ := window_bytes number register
  obtain ⟨hhigh, htimer, hmapped⟩ := read_window h number (.high register)
  obtain ⟨hlow, -, -⟩ := read_window hmapped number (.low register)
  rw [Timer.readChannel_high] at hhigh htimer
  rw [htimer, Timer.readChannel_low] at hlow
  rw [Routine.run_readWord, heven, hodd, Dialogue.run_read, Dialogue.run_read, Dialogue.run_done]
  change (wordOf (board.read (window number (.high register))).1
    ((board.read (window number (.high register))).2.read (window number (.low register))).1, p) = _
  rw [hhigh, hlow, wordOf_bytes]

end Board

theorem Timer.byte_accesses_pair (timer : Timer) (commands : List Command)
    (hspares : ∀ command ∈ commands, command.SparesLatch) (number other : Fin 3) (register another : WideRegister) :
    (let opened := timer.readChannel (registerAddress number (.high register))
      let closed := (opened.2.run commands).1.readChannel (registerAddress other (.low another))
      let value := (timer.channel number).get register
      opened.1 = highByte value ∧ closed.1 = lowByte value) ∧
      (∀ high low : Byte,
        let opened := (timer.writeChannel (registerAddress number (.high register)) high).1
        let before := (opened.run commands).1
        let after := (before.writeChannel (registerAddress other (.low another)) low).1
        ((after.channel other).get another).toNat = high.toNat * 256 + low.toNat ∧
          (∀ number' register', (number', register') ≠ (other, another) →
            (after.channel number').get register' = (before.channel number').get register') ∧
          (∀ number', (after.channel number').counter.control = (before.channel number').counter.control ∧
            (after.channel number').counter.status = (before.channel number').counter.status ∧
            (after.channel number').counter.seen = (before.channel number').counter.seen) ∧
          after = { before with channels := after.channels }) ∧
      ∀ (board : Board) (value : Word) (p : Processor), board.timerMapped = true →
        let a := Board.window number (.high register)
        let trip : Routine Word := do
          Routine.writeWord a value
          Routine.readWord a
        ((trip.run p).run board).1 = (value, p) := by
  refine ⟨?_, ?_, ?_⟩
  · intro opened closed value
    have hopened : opened = (highByte value, { timer with latch := lowByte value }) := timer.readChannel_high _ _
    have hlatch := opened.2.latch_run hspares
    refine ⟨congrArg Prod.fst hopened, ?_⟩
    change ((opened.2.run commands).1.readChannel _).1 = _
    rw [readChannel_low, hlatch, hopened]
  · intro high low opened before after
    have hopened : opened = { timer with latch := high } := congrArg Prod.fst (timer.writeChannel_high _ _ high)
    have hlatch : before.latch = high := by
      change (opened.run commands).1.latch = high
      rw [latch_run _ hspares, hopened]
    have hafter : after = _ := congrArg Prod.fst (before.writeChannel_low other another low)
    rw [hlatch] at hafter
    rw [hafter]
    refine ⟨?_, ?_, ?_, rfl⟩
    · rw [get_setChannel_set, if_pos ⟨rfl, rfl⟩, toNat_wordOf]
    · intro number' register' hne
      rw [get_setChannel_set, if_neg]
      rintro ⟨rfl, rfl⟩
      exact hne rfl
    · intro number'
      exact controls_setChannel_set before other number' another (wordOf high low)
  · intro board value p hmapped a trip
    obtain ⟨hdone, hmapped', hvalue⟩ := Board.writeWord_window hmapped number register value p
    have hrun : (trip.run p).run board = _ := Dialogue.run_bind ((Routine.writeWord a value).run p) _ board
    have hread := Board.readWord_window hmapped' number register p
    rw [hvalue] at hread
    rw [hrun, hdone]
    exact hread

theorem Timer.byte_accesses_pair_across_ticks :
    let counter : Counter 16 4 := { (Counter.new : Counter 16 4) with count := 0x12FE }
    let timer := (Timer.new .generic).setCounter 1 counter
    let commands : List Command := [.clock 64, .write .channels 0x21 0x01, .read .channels 0x39, .read .byteTimer 0x54]
    let board := Board.new .mk1 (Memory.filled 0) true
    let opened := timer.readChannel (registerAddress 1 (.high .count))
    let later := (opened.2.run commands).1
    let a := Board.window 1 (.high .count)
    let trip : Routine Word := do
      Routine.writeWord a 0xBEEF
      Routine.readWord a
    (∀ command ∈ commands, command.SparesLatch) ∧ board.timerMapped = true ∧
      (later.channel 1).counter.count ≠ 0x12FE ∧ opened.1 = 0x12 ∧
      (later.readChannel (registerAddress 2 (.low .capture))).1 = 0xFE ∧
      ((trip.run Processor.new).run board).1 = (0xBEEF, Processor.new) := by
  intro counter timer commands board opened later a trip
  have hspares : ∀ command ∈ commands, command.SparesLatch := by
    intro command hcommand
    simp only [commands, List.mem_cons, List.not_mem_nil, or_false] at hcommand
    obtain rfl | rfl | rfl | rfl := hcommand
    · trivial
    · intro number register
      cases register <;> decide +revert
    · intro number register
      cases register <;> decide +revert
    · trivial
  obtain ⟨⟨hhigh, hlow⟩, -, htrip⟩ := timer.byte_accesses_pair commands hspares 1 2 .count .capture
  have hvalue : (timer.channel 1).get .count = 0x12FE := rfl
  rw [hvalue] at hhigh hlow
  have hhighByte : highByte 0x12FE = 0x12 := by decide
  have hlowByte : lowByte 0x12FE = 0xFE := by decide
  exact ⟨hspares, rfl, by decide +kernel, hhigh.trans hhighByte, hlow.trans hlowByte, htrip board 0xBEEF Processor.new rfl⟩

end Microcontroller
