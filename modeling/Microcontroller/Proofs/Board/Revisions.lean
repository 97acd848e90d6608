import Microcontroller.Machine
import Microcontroller.Proofs.Dialogue.Transcript
import Microcontroller.Proofs.Timer.BlockView

namespace Microcontroller

open Interrupt (Request Signal)

/-- A change of the host that no answer shows. -/
structure Host.Hidden {σ : Type} [Host σ] (f : σ → σ) : Prop where
  read (host : σ) (a : Address) : Host.read (f host) a = ((Host.read host a).1, f (Host.read host a).2)
  write (host : σ) (a : Address) (byte : Byte) : Host.write (f host) a byte = f (Host.write host a byte)
  notify (host : σ) (notice : Interrupt.Notice) : Host.notify (f host) notice = f (Host.notify host notice)

theorem Dialogue.run_hidden {σ α : Type} [Host σ] {f : σ → σ} (h : Host.Hidden f) (x : Dialogue α) (host : σ) :
    x.run (f host) = ((x.run host).1, f (x.run host).2) := by
  induction x generalizing host with
  | done value => rfl
  | fetch a next ih =>
    rw [run_fetch, h.read]
    exact ih _ _
  | read a next ih =>
    rw [run_read, h.read]
    exact ih _ _
  | write a byte next ih =>
    rw [run_write, h.write]
    exact ih _
  | notify notice next ih =>
    rw [run_notify, h.notify]
    exact ih _

theorem Channel.period_agree (channel : Channel) :
    channel.period .generic = channel.period .mk1 ↔ channel.counter.control &&& 3 ≠ 3 := by
  have hselect : ∀ control : Byte, (periods .generic)[(control.setWidth 2).toNat] = (periods .mk1)[(control.setWidth 2).toNat] ↔
      control &&& 3 ≠ 3 := by decide
  exact hselect channel.counter.control

theorem ByteTimer.period_agree (timer : ByteTimer) :
    timer.period .generic = timer.period .mk1 ↔ timer.control &&& 7 < 5 := by
  have hselect : ∀ control : Byte, (periods .generic)[(control.setWidth 3).toNat] = (periods .mk1)[(control.setWidth 3).toNat] ↔
      control &&& 7 < 5 := by decide
  exact hselect timer.control

namespace Timer

def wired (revision : Revision) (timer : Timer) : Timer := { timer with revision }

/-- No block has a clock select whose prescaler is rewired. -/
def SharesPrescalers (timer : Timer) : Prop :=
  (∀ number, (timer.channel number).counter.control &&& 3 ≠ 3) ∧ timer.byteTimer.control &&& 7 < 5

instance (timer : Timer) : Decidable timer.SharesPrescalers :=
  inferInstanceAs (Decidable (_ ∧ _))

theorem channel_period {timer : Timer} (h : timer.SharesPrescalers) (number : Fin 3) (revision revision' : Revision) :
    (timer.channel number).period revision = (timer.channel number).period revision' := by
  have hagree := (timer.channel number).period_agree.mpr (h.1 number)
  cases revision <;> cases revision' <;> first | rfl | exact hagree | exact hagree.symm

theorem byteTimer_period {timer : Timer} (h : timer.SharesPrescalers) (revision revision' : Revision) :
    timer.byteTimer.period revision = timer.byteTimer.period revision' := by
  have hagree := timer.byteTimer.period_agree.mpr h.2
  cases revision <;> cases revision' <;> first | rfl | exact hagree | exact hagree.symm

variable (timer : Timer) (revision : Revision)

theorem readChannel_wired (a : Address) :
    (timer.wired revision).readChannel a = ((timer.readChannel a).1, (timer.readChannel a).2.wired revision) := by
  unfold readChannel
  cases locate? a with
  | none => rfl
  | some place =>
    obtain ⟨number, location⟩ := place
    cases location <;> rfl

theorem writeChannel_wired (a : Address) (data : Byte) :
    (timer.wired revision).writeChannel a data =
      ((timer.writeChannel a data).1.wired revision, (timer.writeChannel a data).2) := by
  unfold writeChannel
  cases locate? a with
  | none => rfl
  | some place =>
    obtain ⟨number, location⟩ := place
    cases location <;> rfl

theorem read_wired (a : Address) :
    (timer.wired revision).read a = ((timer.read a).1, (timer.read a).2.wired revision) := by
  rw [read, read]
  split
  · exact timer.readChannel_wired revision a
  · rfl

theorem write_wired (a : Address) (data : Byte) :
    (timer.wired revision).write a data = ((timer.write a data).1.wired revision, (timer.write a data).2) := by
  rw [write, write]
  split
  · exact timer.writeChannel_wired revision a data
  · rfl

section Clock

theorem tick_eq : timer.tick =
    ({ timer with
        channels := #v[(timer.tickChannel 0).1, (timer.tickChannel 1).1, (timer.tickChannel 2).1]
        byteTimer := (timer.byteTimer.tick timer.revision timer.cycles).1
        cycles := timer.cycles + 1 },
      (timer.tickChannel 0).2 ++ (timer.tickChannel 1).2 ++ (timer.tickChannel 2).2 ++
        (timer.byteTimer.tick timer.revision timer.cycles).2) := rfl

variable {timer}

theorem tick_wired (h : timer.SharesPrescalers) :
    (timer.wired revision).tick = (timer.tick.1.wired revision, timer.tick.2) := by
  have hchannel (number : Fin 3) : (timer.wired revision).tickChannel number = timer.tickChannel number := by
    change (timer.channel number).tick _ revision _ = (timer.channel number).tick _ timer.revision _
    rw [Channel.tick, Channel.tick, channel_period h number revision timer.revision]
    rfl
  have hbyteTimer : (timer.wired revision).byteTimer.tick (timer.wired revision).revision (timer.wired revision).cycles =
      timer.byteTimer.tick timer.revision timer.cycles := by
    change timer.byteTimer.tick revision _ = _
    rw [ByteTimer.tick, ByteTimer.tick, byteTimer_period h revision timer.revision]
    rfl
  rw [tick_eq, hchannel, hchannel, hchannel, hbyteTimer, tick_eq]
  rfl

theorem SharesPrescalers.tick (h : timer.SharesPrescalers) : timer.tick.1.SharesPrescalers := by
  have hchannel (channel : Channel) (number : Fin 3) (revision : Revision) (cycles : BitVec 64) :
      (channel.tick number revision cycles).1.counter.control = channel.counter.control := by
    unfold Channel.tick
    split <;> rfl
  have hbyteTimer (byteTimer : ByteTimer) (cycles : BitVec 64) :
      (byteTimer.tick timer.revision cycles).1.control = byteTimer.control := by
    unfold ByteTimer.tick
    split <;> rfl
  constructor
  · intro number
    have hview := congrArg Prod.fst (timer.view_tick (.channel number))
    change timer.tick.1.channel number = ((timer.channel number).tick number timer.revision timer.cycles).1 at hview
    rw [hview, hchannel]
    exact h.1 number
  · rw [tick_eq, hbyteTimer]
    exact h.2

theorem advance_wired (h : timer.SharesPrescalers) (target : BitVec 64) (fuel : Nat) (requests : Array Request) :
    advance target fuel (timer.wired revision) requests =
      ((advance target fuel timer requests).1.wired revision, (advance target fuel timer requests).2) := by
  induction fuel generalizing timer requests with
  | zero => rfl
  | succ fuel ih =>
    have hsucc (timer : Timer) : advance target (fuel + 1) timer requests =
        if timer.isBehind target then advance target fuel timer.tick.1 (requests ++ timer.tick.2) else (timer, requests) :=
      rfl
    have hbehind : (timer.wired revision).isBehind target = timer.isBehind target := rfl
    rw [hsucc, hsucc, hbehind, tick_wired revision h]
    split
    · exact ih h.tick _
    · rfl

theorem clock_wired (h : timer.SharesPrescalers) (target : BitVec 64) :
    (timer.wired revision).clock target = ((timer.clock target).1.wired revision, (timer.clock target).2) :=
  advance_wired revision h target (timer.ticksDue target) #[]

end Clock

end Timer

namespace Board

def wired (revision : Revision) (board : Board) : Board := { board with timer := board.timer.wired revision }

variable (board : Board) (revision : Revision)

theorem receive_foldl_wired (requests : List Request) :
    requests.foldl (fun board request => board.receive (.request request)) (board.wired revision) =
      (requests.foldl (fun board request => board.receive (.request request)) board).wired revision := by
  induction requests generalizing board with
  | nil => rfl
  | cons request requests ih => exact ih (board.receive (.request request))

theorem hidden_wired : Host.Hidden (wired revision) where
  read board a := by
    change (board.wired revision).read a = ((board.read a).1, (board.read a).2.wired revision)
    have hregister : (board.wired revision).timerRegister? a = board.timerRegister? a := rfl
    unfold read
    rw [hregister]
    cases board.timerRegister? a with
    | none => rfl
    | some register =>
      have hread : (board.wired revision).timer.read register = _ := board.timer.read_wired revision register
      dsimp only
      rw [hread]
      rfl
  write board a byte := by
    change (board.wired revision).write a byte = (board.write a byte).wired revision
    have hregister : (board.wired revision).timerRegister? a = board.timerRegister? a := rfl
    unfold write
    rw [hregister]
    cases board.timerRegister? a with
    | none => rfl
    | some register =>
      have hwrite : (board.wired revision).timer.write register byte = _ := board.timer.write_wired revision register byte
      dsimp only
      rw [hwrite, ← receive_foldl_wired]
      rfl
  notify _ _ := rfl

variable {board}

theorem clock_wired (h : board.timer.SharesPrescalers) (target : BitVec 64) :
    (board.wired revision).clock target = (board.clock target).wired revision := by
  have hclock : (board.wired revision).timer.clock target = _ := Timer.clock_wired revision h target
  unfold clock
  rw [hclock]
  dsimp only
  rw [← Array.foldl_toList, ← Array.foldl_toList, ← receive_foldl_wired]
  rfl

end Board

namespace Machine

inductive Move where
  | step
  | clock (target : BitVec 64)
  deriving DecidableEq

def apply (machine : Machine) : Move → Option (Except Trap Unit) × Machine
  | .step => (some machine.step.1, machine.step.2)
  | .clock target => (none, machine.clock target)

def points (machine : Machine) : List Move → List (Option (Except Trap Unit) × Machine)
  | [] => []
  | move :: moves => machine.apply move :: (machine.apply move).2.points moves

def SharesPrescalers (machine : Machine) : List Move → Prop
  | [] => True
  | .step :: moves => machine.step.2.SharesPrescalers moves
  | .clock target :: moves => machine.board.timer.SharesPrescalers ∧ (machine.clock target).SharesPrescalers moves

def decideSharesPrescalers : (machine : Machine) → (moves : List Move) → Decidable (machine.SharesPrescalers moves)
  | _, [] => inferInstanceAs (Decidable True)
  | machine, .step :: moves => decideSharesPrescalers machine.step.2 moves
  | machine, .clock target :: moves =>
    have := decideSharesPrescalers (machine.clock target) moves
    inferInstanceAs (Decidable (_ ∧ _))

instance (machine : Machine) (moves : List Move) : Decidable (machine.SharesPrescalers moves) :=
  decideSharesPrescalers machine moves

def wired (revision : Revision) (machine : Machine) : Machine := { machine with board := machine.board.wired revision }

variable (machine : Machine) (revision : Revision)

theorem perform_wired {α : Type} (routine : Routine α) :
    (machine.wired revision).perform routine =
      ((machine.perform routine).1, (machine.perform routine).2.wired revision) := by
  have hrun : (routine.run (machine.wired revision).processor).run (machine.wired revision).board = _ :=
    (routine.run machine.processor).run_hidden (Board.hidden_wired revision) machine.board
  unfold perform
  rw [hrun]
  rfl

theorem points_wired {moves : List Move} (h : machine.SharesPrescalers moves) :
    (machine.wired revision).points moves =
      (machine.points moves).map fun point => (point.1, point.2.wired revision) := by
  induction moves generalizing machine with
  | nil => rfl
  | cons move moves ih =>
    cases move with
    | step =>
      have hstep : (machine.wired revision).step = (machine.step.1, machine.step.2.wired revision) :=
        perform_wired machine revision _
      rw [points, apply, hstep]
      exact congrArg (_ :: ·) (ih _ h)
    | clock target =>
      have hclock : (machine.wired revision).clock target = (machine.clock target).wired revision :=
        congrArg (Machine.mk _) (Board.clock_wired revision h.1 target)
      rw [points, apply, hclock]
      exact congrArg (_ :: ·) (ih _ h.2)

theorem revisions_agree {moves : List Move} (h : (machine.wired .generic).SharesPrescalers moves) :
    (machine.wired .mk1).points moves =
      ((machine.wired .generic).points moves).map fun point => (point.1, point.2.wired .mk1) :=
  points_wired (machine.wired .generic) .mk1 h

theorem revisions_agree_reprogrammed :
    let memory := (Memory.filled 0).store 0 #[0x15, 0xFF, 0x10, 0x06, 0x01]
    let machine : Machine := ⟨Processor.new, Board.new .generic memory true⟩
    let moves := [Move.clock 40, .step, .clock 90, .step]
    (machine.wired .generic).SharesPrescalers moves ∧
      (machine.wired .mk1).points moves =
        ((machine.wired .generic).points moves).map fun point => (point.1, point.2.wired .mk1) := by
  intro memory machine moves
  have h : (machine.wired .generic).SharesPrescalers moves := by decide +kernel
  exact ⟨h, machine.revisions_agree h⟩

end Machine

end Microcontroller
