import Microcontroller.Proofs.Board.TimerWindow
import Microcontroller.Proofs.Instruction.BitInstructions
import Microcontroller.Proofs.Timer.StatusAccess

namespace Microcontroller

open Dialogue Interrupt
open Timer (Block Command)

namespace Counter

variable {width firstFlag : Nat}

def changeBit (counter : Counter width firstFlag) (change : BitChange) (number : Nat) :
    Counter width firstFlag × List TimerEvent :=
  if change = .test then (counter.readStatus.2, [])
  else counter.readStatus.2.writeStatus (change.changed counter.status number)

def Addresses (firstFlag : Nat) (change : BitChange) (number : Nat) (event : TimerEvent) : Prop :=
  (change = .clear ∨ change = .invert) ∧ number = firstFlag + event.rank

instance (change : BitChange) (number : Nat) (event : TimerEvent) : Decidable (Addresses firstFlag change number event) :=
  inferInstanceAs (Decidable (_ ∧ _))

variable (counter : Counter width firstFlag) (change : BitChange) (number : Nat)

theorem changeBit_fields :
    (counter.changeBit change number).1 =
      { counter with
        status := (counter.changeBit change number).1.status
        seen := (counter.changeBit change number).1.seen } := by
  unfold changeBit
  split <;> rfl

section Flags

variable (hfirst : 4 ≤ firstFlag) (hlast : firstFlag ≤ 5)

include hlast in
theorem getLsbD_changed_flag (event : TimerEvent) (hset : counter.isSet event = true) :
    (change.changed counter.status number).getLsbD (firstFlag + event.rank) =
      !decide (Addresses firstFlag change number event) := by
  have hbit : counter.status.getLsbD (firstFlag + event.rank) = true := hset
  rw [BitChange.getLsbD_changed _ _ _ (flag_lt hlast event), hbit]
  unfold Addresses
  by_cases h : firstFlag + event.rank = number
  · cases change <;> simp [BitChange.bit, h]
  · simp [h, Ne.symm h]

include hfirst hlast in
theorem isSet_changeBit (event : TimerEvent) :
    (counter.changeBit change number).1.isSet event =
      (counter.isSet event && !decide (Addresses firstFlag change number event)) := by
  unfold changeBit
  split
  next htest =>
    subst htest
    have hspared : ¬Addresses firstFlag .test number event := by rintro ⟨h | h, -⟩ <;> cases h
    rw [decide_eq_false hspared]
    exact (Bool.and_true _).symm
  next =>
    rw [isSet_writeBack hfirst hlast]
    cases hset : counter.isSet event with
    | false => rfl
    | true => rw [getLsbD_changed_flag counter change number hlast event hset]

include hlast in
theorem cleared_changeBit (hseen : ∀ event, counter.isSeen event = true → counter.isSet event = true) :
    (counter.changeBit change number).2 =
      TimerEvent.all.filter fun event => counter.isSet event && decide (Addresses firstFlag change number event) := by
  unfold changeBit
  split
  next htest =>
    subst htest
    refine (List.filter_eq_nil_iff.mpr fun event _ h => ?_).symm
    obtain ⟨-, hcleared⟩ := Bool.and_eq_true_iff.mp h
    obtain ⟨h | h, -⟩ := of_decide_eq_true hcleared <;> cases h
  next =>
    rw [acknowledged_writeBack hlast counter _ hseen]
    refine List.filter_congr fun event _ => ?_
    cases hset : counter.isSet event with
    | false => rfl
    | true => rw [getLsbD_changed_flag counter change number hlast event hset, Bool.not_not]

include hfirst hlast in
theorem changeBit_of_addresses (hseen : ∀ event, counter.isSeen event = true → counter.isSet event = true)
    {event : TimerEvent} (haddresses : Addresses firstFlag change number event) (hset : counter.isSet event = true) :
    (∀ other, (counter.changeBit change number).1.isSet other = (counter.isSet other && decide (other ≠ event))) ∧
      (counter.changeBit change number).2 = [event] := by
  have hiff (other : TimerEvent) : Addresses firstFlag change number other ↔ other = event := by
    constructor
    · rintro ⟨-, hother⟩
      exact rank_injective (Nat.add_left_cancel (hother.symm.trans haddresses.2))
    · rintro rfl
      exact haddresses
  simp only [isSet_changeBit counter change number hfirst hlast, cleared_changeBit counter change number hlast hseen, hiff,
    decide_not, true_and, implies_true]
  have hown (other : TimerEvent) : (counter.isSet other && decide (other = event)) = decide (other = event) := by
    by_cases h : other = event
    · rw [h, hset, Bool.true_and]
    · rw [decide_eq_false h, Bool.and_false]
  rw [List.filter_congr fun other _ => hown other]
  cases event <;> rfl

include hfirst hlast in
theorem changeBit_of_spares (hseen : ∀ event, counter.isSeen event = true → counter.isSet event = true)
    (hspares : ∀ event, Addresses firstFlag change number event → counter.isSet event = false) :
    (∀ event, (counter.changeBit change number).1.isSet event = counter.isSet event) ∧
      (counter.changeBit change number).2 = [] := by
  constructor
  · intro event
    rw [isSet_changeBit counter change number hfirst hlast]
    by_cases h : Addresses firstFlag change number event
    · rw [hspares event h, Bool.false_and]
    · rw [decide_eq_false h, Bool.not_false, Bool.and_true]
  · rw [cleared_changeBit counter change number hlast hseen, List.filter_eq_nil_iff]
    intro event _ h
    obtain ⟨hset, haddresses⟩ := Bool.and_eq_true_iff.mp h
    exact Bool.noConfusion (hset.symm.trans (hspares event (of_decide_eq_true haddresses)))

include hfirst in
theorem getLsbD_status_changeBit {i : Nat} (hi : i < 4) :
    (counter.changeBit change number).1.status.getLsbD i =
      if i = number then change.bit (counter.status.getLsbD i) else counter.status.getLsbD i := by
  unfold changeBit
  split
  next htest =>
    subst htest
    exact (ite_self _).symm
  next => rw [getLsbD_status_writeStatus_low hfirst _ _ hi, BitChange.getLsbD_changed _ _ _ (by omega)]

end Flags

end Counter

def Event.request? : Event → Option Request
  | .signal (.request request) => some request
  | _ => none

theorem Dialogue.Takes.run_board {α : Type} {page : Byte} {pc : Word} {code : List Byte} {x y : Dialogue α} {board : Board}
    (h : Takes page pc code x y) (hcode : board.memory.Holds page pc code)
    (houtside : ∀ a ∈ codePath page pc code.length, board.timerRegister? a = none) :
    ∃ journal : Array Event, x.run board = y.run { board with journal := journal } ∧
      journal.toList.filterMap Event.request? = board.journal.toList.filterMap Event.request? := by
  induction code generalizing pc x board with
  | nil =>
    rw [takes_nil] at h
    subst h
    exact ⟨board.journal, rfl, rfl⟩
  | cons byte code ih =>
    obtain ⟨next, rfl, h⟩ := h
    obtain ⟨hbyte, hmore⟩ := (board.memory.holds_cons page pc byte code).mp hcode
    obtain ⟨hhere, hlater⟩ := List.forall_mem_cons.mp houtside
    have hread : board.read (address page pc) = (byte, board.log (.read (address page pc) byte)) := by
      rw [Board.read, hhere, hbyte]
    let fetched := board.log (.read (address page pc) byte)
    have hfetched : fetched.memory.Holds page (pc + 1) code := hmore
    obtain ⟨journal, hrun, hrequests⟩ := ih h hfetched hlater
    refine ⟨journal, ?_, hrequests.trans ?_⟩
    · rw [run_fetch]
      change (next (board.read _).1).run (board.read _).2 = _
      rw [hread]
      exact hrun
    · simp [fetched, Board.log, Event.request?]

namespace Board

def requests (board : Board) : List Request := board.journal.toList.filterMap Event.request?

theorem requests_foldl_receive (made : List Request) (board : Board) :
    (made.foldl (fun board request => board.receive (.request request)) board).requests = board.requests ++ made := by
  induction made generalizing board with
  | nil => exact (List.append_nil _).symm
  | cons request made ih =>
    rw [List.foldl_cons, ih]
    simp [requests, receive, log, Event.request?]

def statusAddress (block : Block) : Address := 0xFF00 + block.statusAddress

section Status

variable {board : Board} (h : board.timerMapped = true) (block : Block)

theorem read_status_port (timer : Timer) (block : Block) :
    timer.read block.statusAddress = timer.readPort block.port block.statusAddress := by
  cases block with
  | channel number => exact if_pos (by decide +revert)
  | byteTimer => rfl

theorem write_status_port (timer : Timer) (block : Block) (data : Byte) :
    timer.write block.statusAddress data = timer.writePort block.port block.statusAddress data := by
  cases block with
  | channel number => exact if_pos (by decide +revert)
  | byteTimer => rfl

include h

theorem timerRegister?_status : board.timerRegister? (statusAddress block) = some block.statusAddress := by
  have hrange : 0xFF00 ≤ statusAddress block ∧ statusAddress block ≤ 0xFF7F := by
    cases block with
    | channel number => decide +revert
    | byteTimer => decide
  rw [timerRegister?, if_pos ⟨h, hrange⟩, statusAddress, BitVec.add_comm, BitVec.add_sub_cancel]

theorem read_status :
    let counter := board.timer.counter block
    board.read (statusAddress block) =
      (counter.status,
        { board with timer := board.timer.putCounter block counter.readStatus.2 }.log
          (.read (statusAddress block) counter.status)) := by
  rw [read, timerRegister?_status h]
  dsimp only
  rw [read_status_port, Timer.readPort_status]

theorem write_status (data : Byte) :
    let written := (board.timer.counter block).writeStatus data
    let board' := board.write (statusAddress block) data
    board'.timer = board.timer.putCounter block written.1 ∧
      board'.requests = board.requests ++ block.requests written.2 false := by
  rw [write, timerRegister?_status h]
  dsimp only
  rw [write_status_port, Timer.writePort_status]
  refine ⟨(timer_foldl_receive _ _).1, (requests_foldl_receive _ _).trans ?_⟩
  simp [requests, log, Event.request?]

theorem run_bit_instruction (instruction : BitInstruction) {page : Byte} {offset : Word} (escaped : Bool) (p : Processor)
    (hplace : address page offset = statusAddress block) :
    let counter := board.timer.counter block
    let number := instruction.index.value p
    let touched := counter.changeBit instruction.change number
    let result := ((instruction.routine ⟨.memory page offset, .byte, escaped⟩).run p).run board
    result.1.2 = p.updateStatus (·.set .zero (!counter.status.getLsbD number)) ∧
      result.2.timer = board.timer.putCounter block touched.1 ∧
      result.2.requests = board.requests ++ block.requests touched.2 false := by
  intro counter number touched result
  let opened : Board := { board with timer := board.timer.putCounter block counter.readStatus.2 }.log
    (.read (statusAddress block) counter.status)
  have hrequests : opened.requests = board.requests := by simp [opened, requests, log, Event.request?]
  have hrun : result = (((), p.updateStatus (·.set .zero (!counter.status.getLsbD number))),
      if instruction.change = .test then opened
      else opened.write (statusAddress block) (instruction.change.changed counter.status number)) := by
    have hread : Host.read board (statusAddress block) = (counter.status, opened) := read_status h block
    change ((instruction.routine _).run p).run board = _
    rw [instruction.run_routine_byte, hplace, run_read, hread]
    dsimp only
    split <;> rfl
  rw [hrun]
  refine ⟨rfl, ?_⟩
  simp only [touched, Counter.changeBit]
  split
  next => exact ⟨rfl, hrequests.trans (List.append_nil _).symm⟩
  next =>
    have hopened : opened.timerMapped = true := h
    have hcounter : opened.timer.counter block = counter.readStatus.2 := Timer.counter_putCounter _ _
    obtain ⟨htimer, hmade⟩ := write_status hopened block (instruction.change.changed counter.status number)
    rw [hcounter] at htimer hmade
    exact ⟨htimer.trans (Timer.putCounter_putCounter _ _ _), hrequests ▸ hmade⟩

theorem step_bit_instruction (instruction : BitInstruction) (pointer : Pointer) (escaped : Bool) (p : Processor)
    (hplace : address (pointer.page p) (pointer.offset .byte p) = statusAddress block)
    (hcode : board.memory.Holds p.codePage p.pc
      ((Reference.memory pointer : Reference .byte).encode escaped instruction.code))
    (houtside : ∀ a ∈ codePath p.codePage p.pc
      ((Reference.memory pointer : Reference .byte).encode escaped instruction.code).length,
      ¬(0xFF00 ≤ a ∧ a ≤ 0xFF7F)) :
    let counter := board.timer.counter block
    let number := instruction.index.value (pointer.stepped .byte p)
    let touched := counter.changeBit instruction.change number
    let result := (Instruction.step.run p).run board
    result.1.1 = .ok () ∧ result.1.2.status = p.status.set .zero (!counter.status.getLsbD number) ∧
      result.2.timer = board.timer.putCounter block touched.1 ∧
      result.2.requests = board.requests ++ block.requests touched.2 false := by
  intro counter number touched result
  let reference : Reference .byte := .memory pointer
  let q : Processor := { reference.stepped p with
    pc := p.pc + BitVec.ofNat 16 (reference.encode escaped instruction.code).length }
  have hnumber : instruction.index.value q = number := by
    simp only [number]
    cases instruction.index <;> rfl
  have hmemory : (reference.operand p escaped).isImmediate = false := rfl
  have htakes := instruction.step_takes reference p hmemory
  obtain ⟨journal, hrun, hrequests⟩ := htakes.run_board hcode fun a ha => if_neg fun hwindow => houtside a ha hwindow.2
  rw [run_completed] at hrun
  let fetched : Board := { board with journal := journal }
  have hfetched : fetched.timerMapped = true := h
  obtain ⟨hprocessor, htimer, hmade⟩ := run_bit_instruction hfetched block instruction escaped q hplace
  rw [hnumber] at hprocessor htimer hmade
  have hstatus : q.status = p.status := reference.status_stepped p
  refine ⟨congrArg (·.1.1) hrun, ?_, (congrArg (·.2.timer) hrun).trans htimer, ?_⟩
  · rw [← hstatus]
    exact (congrArg (·.1.2.status) hrun).trans (congrArg Processor.status hprocessor)
  · refine ((congrArg (·.2.requests) hrun).trans hmade).trans ?_
    exact congrArg (· ++ _) hrequests

end Status

theorem bit_instruction_on_status (board : Board) (hmapped : board.timerMapped = true) (revision : Revision)
    (commands : List Command) (htimer : board.timer = ((Timer.new revision).run commands).1)
    (instruction : BitInstruction) (pointer : Pointer) (escaped : Bool) (p : Processor) (block : Block)
    (hplace : address (pointer.page p) (pointer.offset .byte p) = statusAddress block)
    (hcode : board.memory.Holds p.codePage p.pc
      ((Reference.memory pointer : Reference .byte).encode escaped instruction.code))
    (houtside : ∀ a ∈ codePath p.codePage p.pc
      ((Reference.memory pointer : Reference .byte).encode escaped instruction.code).length,
      ¬(0xFF00 ≤ a ∧ a ≤ 0xFF7F)) :
    let counter := board.timer.counter block
    let number := instruction.index.value (pointer.stepped .byte p)
    let result := (Instruction.step.run p).run board
    let after := result.2.timer
    let Clears (event : TimerEvent) : Prop :=
      (instruction.change = .clear ∨ instruction.change = .invert) ∧ number = block.flagBit event ∧
        board.timer.isSet block event = true
    result.1.1 = .ok () ∧
      (∀ event, Clears event →
        after.isSet block event = false ∧
          (∀ other another, (other, another) ≠ (block, event) →
            after.isSet other another = board.timer.isSet other another) ∧
          result.2.requests = board.requests ++ [⟨block.source event, false⟩]) ∧
      ((∀ event, ¬Clears event) →
        (∀ other another, after.isSet other another = board.timer.isSet other another) ∧
          result.2.requests = board.requests) ∧
      (∀ i < 4, (after.counter block).status.getLsbD i =
        if i = number then instruction.change.bit (counter.status.getLsbD i) else counter.status.getLsbD i) ∧
      result.1.2.status.get .zero = !counter.status.getLsbD number ∧
      (8 ≤ number → result.1.2.status.get .zero = true) ∧
      ∃ status seen, after = board.timer.putCounter block { counter with status := status, seen := seen } := by
  intro counter number result after Clears
  obtain ⟨hok, hstatus, hafter, hmade⟩ :=
    step_bit_instruction hmapped block instruction pointer escaped p hplace hcode houtside
  let touched := counter.changeBit instruction.change number
  have hcounter : after.counter block = touched.1 := (congrArg (·.counter block) hafter).trans (Timer.counter_putCounter _ _)
  have hforeign (other : Block) (another : TimerEvent) (h : other ≠ block) :
      after.isSet other another = board.timer.isSet other another := by
    rw [Timer.isSet, (congrArg (·.counter other) hafter).trans (Timer.counter_putCounter_of_ne _ h _)]
    rfl
  have hseen (event : TimerEvent) : counter.isSeen event = true → counter.isSet event = true := by
    have hreached := Timer.isSet_of_isSeen revision commands block event
    rw [← htimer] at hreached
    dsimp only at hreached
    rwa [Timer.isSeen_eq, Timer.isSet_eq] at hreached
  have hset (event : TimerEvent) : board.timer.isSet block event = counter.isSet event := Timer.isSet_eq _ _ _
  have hleft (event : TimerEvent) : after.isSet block event = touched.1.isSet event := by
    rw [Timer.isSet_eq, hcounter]
  have hzero : result.1.2.status.get .zero = !counter.status.getLsbD number := by
    rw [hstatus, Status.get_set, if_pos rfl]
  refine ⟨hok, ?_, ?_, ?_, hzero, ?_, touched.1.status, touched.1.seen, ?_⟩
  · rintro event ⟨hchange, hbit, hflag⟩
    rw [← block.firstFlag_add_rank] at hbit
    rw [hset] at hflag
    obtain ⟨hflags, hcleared⟩ := counter.changeBit_of_addresses instruction.change number block.four_le_firstFlag
      block.firstFlag_le_five hseen ⟨hchange, hbit⟩ hflag
    refine ⟨?_, ?_, ?_⟩
    · rw [hleft, hflags event, decide_eq_false (absurd rfl), Bool.and_false]
    · intro other another hother
      by_cases h : other = block
      · subst h
        have hne : another ≠ event := fun h => hother (h ▸ rfl)
        rw [hleft, hflags another, decide_eq_true hne, Bool.and_true, hset]
      · exact hforeign other another h
    · rw [hmade, hcleared]
      rfl
  · intro h
    have hspares (event : TimerEvent) (haddresses : Counter.Addresses block.firstFlag instruction.change number event) :
        counter.isSet event = false := by
      rw [Bool.eq_false_iff, ← hset]
      intro hflag
      exact h event ⟨haddresses.1, haddresses.2.trans (block.firstFlag_add_rank event), hflag⟩
    obtain ⟨hflags, hcleared⟩ := counter.changeBit_of_spares instruction.change number block.four_le_firstFlag
      block.firstFlag_le_five hseen hspares
    constructor
    · intro other another
      by_cases h : other = block
      · subst h
        rw [hleft, hflags another, hset]
      · exact hforeign other another h
    · rw [hmade, hcleared]
      exact List.append_nil _
  · intro i hi
    rw [hcounter]
    exact counter.getLsbD_status_changeBit _ _ block.four_le_firstFlag hi
  · intro h
    rw [hzero, BitVec.getLsbD_of_ge _ _ h]
    rfl
  · rw [show after = _ from hafter]
    exact congrArg _ (counter.changeBit_fields _ _)

theorem bit_instruction_on_status_after_match :
    let commands : List Command := [.write .channels 0x10 0x03, .clock 1]
    let timer := ((Timer.new .generic).run commands).1
    let memory := (Memory.filled 0).store 0 #[0xC3, 0x5C]
    let board : Board := { Board.new .generic memory true with timer := timer }
    let p := (Processor.new.setReg 3 0xFF11).setReg 4 0x0035
    let result := (Instruction.step.run p).run board
    timer.isSet (.channel 0) .compareA = true ∧ timer.isSet (.channel 0) .compareB = true ∧
      result.2.timer.isSet (.channel 0) .compareA = false ∧ result.2.timer.isSet (.channel 0) .compareB = true ∧
      result.2.requests = [⟨.channel 0 .compareA, false⟩] ∧ result.1.2.status.get .zero = false := by
  intro commands timer memory board p result
  have hset : timer.isSet (.channel 0) .compareA = true ∧ timer.isSet (.channel 0) .compareB = true := by decide +kernel
  have houtside : ∀ a ∈ codePath 0 0 2, ¬(0xFF00 ≤ a ∧ a ≤ 0xFF7F) :=
    List.forall_mem_cons.mpr ⟨by decide, List.forall_mem_singleton.mpr (by decide)⟩
  obtain ⟨-, hcleared, -, -, hzero, -⟩ := bit_instruction_on_status board rfl .generic commands rfl (.clear (.register 4))
    (.postIncrement 3) false p (.channel 0) (by decide +kernel) (by decide +kernel) houtside
  obtain ⟨hown, hothers, hmade⟩ := hcleared .compareA (by decide +kernel)
  refine ⟨hset.1, hset.2, hown, ?_, hmade, ?_⟩
  · exact (hothers (.channel 0) .compareB (by decide)).trans hset.2
  · exact hzero.trans (by decide +kernel)

end Board

end Microcontroller
