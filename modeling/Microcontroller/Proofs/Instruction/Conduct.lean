import Microcontroller.Instruction.Step
import Microcontroller.Proofs.Dialogue.Accesses
import Microcontroller.Proofs.Processor.StatusFlags

/-!
Relations between the processor before a computation, the calls that it makes and the processor after it. If
the parts of an instruction keep a relation that composes, the instruction does, and instance search puts the
parts together.
-/

namespace Microcontroller

open Dialogue Processor

abbrev Conduct : Type := Processor → List Call → Processor → Prop

namespace Conduct

class Composable (R : Conduct) : Prop where
  refl (p : Processor) : R p [] p
  trans {p q r : Processor} {calls more : List Call} : R p calls q → R q more r → R p (calls ++ more) r

class Setting (R : Conduct) (r : Register) : Prop where
  set (p : Processor) (value : Word) : R p [] (p.setReg r value)

class Storing (R : Conduct) (r : Register) (size : Size) : Prop where
  store (p : Processor) (value : Long) : R p [] (p.store r value size)

instance (R : Conduct) (r : Register) (size : Size) [Setting R r] : Storing R r size :=
  ⟨fun p _ => by cases size <;> exact Setting.set p _⟩

class Holding (R : Conduct) (operand : Operand) : Prop where
  hold (r : Register) : operand.place = .register r → Storing R r operand.size

instance (R : Conduct) (operand : Operand) [∀ r, Storing R r operand.size] : Holding R operand :=
  ⟨fun _ _ => inferInstance⟩

class Flagging (R : Conduct) (flag : Flag) : Prop where
  flag (p : Processor) (on : Bool) : R p [] (p.updateStatus (·.set flag on))

class Coding (R : Conduct) : Prop where
  code (p : Processor) (f : Status → Status) : (f p.status).masked = p.status.masked → R p [] (p.updateStatus f)

instance (R : Conduct) (flag : Flag) [Coding R] : Flagging R flag :=
  ⟨fun p on => Coding.code p _ (p.status.masked_set flag on)⟩

class Controlling (R : Conduct) : Prop where
  control {p q : Processor} : q = { q with registers := p.registers, pc := p.pc, codePage := p.codePage } → R p [] q

instance (R : Conduct) [Controlling R] : Coding R := ⟨fun _ _ _ => Controlling.control rfl⟩

class Computing (R : Conduct) : Prop extends Composable R where
  compute {p q : Processor} : q = { p with registers := q.registers, status := q.status } →
    q.status.masked = p.status.masked → R p [] q

instance (R : Conduct) (r : Register) [Computing R] : Setting R r := ⟨fun _ _ => Computing.compute rfl rfl⟩

instance (R : Conduct) [Computing R] : Coding R := ⟨fun _ _ h => Computing.compute rfl h⟩

class Updating (R : Conduct) : Prop extends Composable R where
  update {p q : Processor} : q.pc = p.pc → q.codePage = p.codePage → R p [] q

instance (R : Conduct) [Updating R] : Computing R :=
  ⟨fun h _ => Updating.update (h ▸ rfl) (h ▸ rfl)⟩

instance (R : Conduct) [Updating R] : Controlling R := ⟨fun h => Updating.update (h ▸ rfl) (h ▸ rfl)⟩

class Accessing (R : Conduct) : Prop extends Composable R where
  read (p : Processor) (a : Address) (byte : Byte) : R p [.read a byte] p
  write (p : Processor) (a : Address) (byte : Byte) : R p [.write a byte] p
  report (p : Processor) (notice : Interrupt.Notice) :
    (∀ trap, notice ≠ .errorTrap trap) → R p [.notify notice] p

class Local (R : Conduct) : Prop extends Updating R, Accessing R

class Fetching (R : Conduct) : Prop where
  fetch (p : Processor) (byte : Byte) :
    R p [.fetch (address p.codePage p.pc) byte] { p with pc := p.pc + 1 }

class Branching (R : Conduct) : Prop where
  branch (p : Processor) (target : Word) : R p [] { p with pc := target }

class Jumping (R : Conduct) : Prop where
  jump (p : Processor) (page : Byte) (target : Word) : R p [] { p with pc := target, codePage := page }

instance (R : Conduct) [Jumping R] : Branching R := ⟨fun p target => Jumping.jump p p.codePage target⟩

end Conduct

open Conduct

namespace Routine

variable {α β : Type} (R : Conduct)

class Keeps (x : Routine α) : Prop where
  ensures : ∀ p, (x.run p).Ensures fun calls r => R p calls r.2

instance [Composable R] (value : α) : Keeps R (pure value) := ⟨Composable.refl⟩

instance [Composable R] : Keeps R get := ⟨Composable.refl⟩

instance [Composable R] (x : Routine α) (f : α → Routine β) [hx : Keeps R x] [hf : ∀ value, Keeps R (f value)] :
    Keeps R (x >>= f) where
  ensures p := by
    rw [run_bind, ensures_bind]
    apply (hx.ensures p).mono
    intro calls r h
    apply ((hf r.1).ensures r.2).mono
    intro more _ h'
    exact Composable.trans h h'

instance (c : Prop) [Decidable c] (x y : Routine α) [Keeps R x] [Keeps R y] : Keeps R (if c then x else y) := by
  split <;> assumption

instance [Composable R] (list : List Register) (f : Register → Routine Unit) [∀ r, Keeps R (f r)] :
    Keeps R (list.forM f) := by
  induction list with
  | nil => exact inferInstanceAs (Keeps R (pure ()))
  | cons r list ih => exact inferInstanceAs (Keeps R (f r >>= fun _ => list.forM f))

instance [Branching R] (target : Word) : Keeps R (jump target) := ⟨fun p => Branching.branch p target⟩

instance [Branching R] (offset : Word) : Keeps R (branch offset) := ⟨fun p => Branching.branch p (p.pc + offset)⟩

instance [Jumping R] (page : Byte) (target : Word) : Keeps R (jumpToPage page target) :=
  ⟨fun p => Jumping.jump p page target⟩

instance [Updating R] (f : Status → Status) : Keeps R (updateStatus f) := ⟨fun _ => Updating.update rfl rfl⟩

section Changes

variable [Controlling R]

instance : Keeps R holdInterrupts := ⟨fun _ => Controlling.control rfl⟩

instance : Keeps R Instruction.sleep := ⟨fun _ => Controlling.control rfl⟩

end Changes

section Computations

instance (r : Register) (f : Processor → Word) [Setting R r] : Keeps R (modify fun p => p.setReg r (f p)) :=
  ⟨fun p => Setting.set p (f p)⟩

instance (r : Register) (value : Word) [Setting R r] : Keeps R (setReg r value) := ⟨fun p => Setting.set p value⟩

instance (r : Register) (value : Long) (size : Size) [Storing R r size] : Keeps R (store r value size) :=
  ⟨fun p => Storing.store p value⟩

instance (flag : Flag) (on : Bool) [Flagging R flag] : Keeps R (updateStatus (·.set flag on)) :=
  ⟨fun p => Flagging.flag p on⟩

section Pairs

variable [Composable R]

theorem keeps_setPair (p : Processor) (r : Register) (value : Long) [Setting R (Processor.pairHigh r)]
    [Setting R (Processor.pairLow r)] : R p [] (p.setPair r value) :=
  Composable.trans (Setting.set p _) (Setting.set _ _)

instance (r : Register) (value : Long) [Setting R (Processor.pairHigh r)] [Setting R (Processor.pairLow r)] :
    Keeps R (modify fun p => p.setPair r value) := ⟨fun p => keeps_setPair R p r value⟩

instance (a b : Register) [Setting R a] [Setting R b] : Keeps R (exchange a b) :=
  ⟨fun p => Composable.trans (Setting.set p (p.reg b)) (Setting.set _ (p.reg a))⟩

end Pairs

variable [Coding R]

instance (negative zero overflow carry : Bool) : Keeps R (setCodes negative zero overflow carry) :=
  ⟨fun p => Coding.code p (·.withCodes _) (p.status.masked_withCodes _)⟩

instance (value : Long) (size : Size) : Keeps R (report value size) :=
  ⟨fun p => Coding.code p (·.withResult value size) (p.status.masked_withResult value size)⟩

instance (outcome : Arithmetic.Outcome) : Keeps R (conclude outcome) :=
  ⟨fun p => Coding.code p (·.withCodes outcome.codes) (p.status.masked_withCodes _)⟩

end Computations

section Accesses

variable [Accessing R]

instance (a : Address) : Keeps R (readByte a) := ⟨fun p byte => Accessing.read p a byte⟩

instance (a : Address) (byte : Byte) : Keeps R (writeByte a byte) := ⟨fun p => Accessing.write p a byte⟩

instance (fault : Interrupt.Fault) : Keeps R (raise fault) := ⟨fun p => Accessing.report p _ nofun⟩

instance (vector : BitVec 4) : Keeps R (notify (.softwareTrap vector)) := ⟨fun p => Accessing.report p _ nofun⟩

instance (a : Address) : Keeps R (readWord a) := by unfold readWord; infer_instance

instance (a : Address) (value : Word) : Keeps R (writeWord a value) := by unfold writeWord; infer_instance

instance (offset : Word) : Keeps R (checkAlignment offset) := by unfold checkAlignment; infer_instance

variable [Setting R Processor.stackPointer]

instance (value : Word) : Keeps R (push value) := by unfold push; infer_instance

instance : Keeps R pop := by unfold pop; infer_instance

end Accesses

section Fetches

variable [Fetching R]

instance : Keeps R fetch := ⟨fun p byte => Fetching.fetch p byte⟩

section

variable [Composable R]

instance : Keeps R fetchWord := by unfold fetchWord; infer_instance

instance : Keeps R fetchDisplacement := by unfold fetchDisplacement; infer_instance

instance (size : Size) : Keeps R (fetchImmediate size) := by
  cases size <;> (unfold fetchImmediate; infer_instance)

instance : Keeps R fetchShortOffset := by unfold fetchShortOffset; infer_instance

end

variable [Composable R] [∀ r, Setting R r]

instance (size : Size) (mode : AddressingMode) : Keeps R (mode.resolve size) := by
  cases mode <;> (unfold AddressingMode.resolve; infer_instance)

instance (mode : Byte) : Keeps R (GeneralForm.decode mode) := by unfold GeneralForm.decode; infer_instance

end Fetches

section Halves

variable [Composable R] [Coding R] (r : Register) [Setting R r]

instance : Keeps R (swapHalves r) := by unfold swapHalves; infer_instance

instance : Keeps R (extendSigned r) := by unfold extendSigned; infer_instance

instance : Keeps R (extendUnsigned r) := by unfold extendUnsigned; infer_instance

end Halves

end Routine

namespace Attempt

variable {α β : Type} (R : Conduct)

class Keeps (x : Attempt α) : Prop where
  ensures : ∀ p, (x.run p).Ensures fun calls r => R p calls r.2

instance [Composable R] (value : α) : Keeps R (pure value) := ⟨Composable.refl⟩

instance [Composable R] (trap : Trap) : Keeps R (throw trap : Attempt α) := ⟨Composable.refl⟩

instance [Composable R] : Keeps R get := ⟨Composable.refl⟩

instance (x : Routine α) [hx : x.Keeps R] : Keeps R (liftM x) where
  ensures p := (ensures_lift x p _).mpr (hx.ensures p)

instance [Composable R] (x : Attempt α) (f : α → Attempt β) [hx : Keeps R x] [hf : ∀ value, Keeps R (f value)] :
    Keeps R (x >>= f) where
  ensures p := by
    rw [run_bind, ensures_bind]
    apply (hx.ensures p).mono
    rintro calls ⟨result, q⟩ h
    cases result with
    | error trap => rwa [ensures_done, List.append_nil]
    | ok value =>
      apply ((hf value).ensures q).mono
      intro more _ h'
      exact Composable.trans h h'

instance (c : Prop) [Decidable c] (x y : Attempt α) [Keeps R x] [Keeps R y] : Keeps R (if c then x else y) := by
  split <;> assumption

instance [Composable R] (r : Register) (value : Long) [Setting R (Processor.pairHigh r)] [Setting R (Processor.pairLow r)] :
    Keeps R (modify fun p => p.setPair r value : Attempt Unit) := ⟨fun p => Routine.keeps_setPair R p r value⟩

instance [Composable R] [Controlling R] (index : Byte) (size : Size) (data : Long) :
    Keeps R (writeControl index size data) where
  ensures p := by
    unfold writeControl controlRegister
    cases ControlRegister.ofIndex? size index with
    | none => exact Composable.refl p
    | some register => cases register <;> exact Controlling.control rfl

instance [Composable R] (index : Byte) (size : Size) : Keeps R (readControl index size) where
  ensures p := by
    unfold readControl controlRegister
    cases ControlRegister.ofIndex? size index <;> exact Composable.refl p

end Attempt

namespace Operand

variable (R : Conduct)

instance [Composable R] [Coding R] (operand : Operand) (value : Long) (data : Word) :
    (operand.compareWith value data).Keeps R := by
  unfold compareWith; infer_instance

variable [Accessing R]

instance (operand : Operand) : operand.read.Keeps R := by
  unfold read; split <;> infer_instance

instance (operand : Operand) (value : Long) [hold : Holding R operand] : (operand.write value).Keeps R := by
  obtain ⟨place, size, extended⟩ := operand
  cases place with
  | register r =>
    have : Storing R r size := hold.hold r rfl
    exact inferInstanceAs ((Routine.store r value size).Keeps R)
  | memory page offset => cases size <;> (unfold write; dsimp only; infer_instance)
  | immediate data => exact inferInstanceAs ((Routine.raise .invalidInstruction).Keeps R)

instance (change : BitChange) (operand : Operand) (number : Nat) [Holding R operand] [Flagging R .zero] :
    (operand.changeBit change number).Keeps R := by
  unfold changeBit; infer_instance

instance (operand : Operand) (number : Nat) [Flagging R .zero] : (operand.changeBit .test number).Keeps R := by
  unfold changeBit
  simp only [if_true]
  infer_instance

instance (operand : Operand) (index : Byte) (sub : Register) [Flagging R .zero] : (operand.testBit index sub).Keeps R := by
  unfold testBit; infer_instance

instance (operand : Operand) (index : Byte) (sub : Register) [Flagging R .zero] :
    (operand.numberedBit .test index sub).Keeps R := by
  unfold numberedBit; infer_instance

instance (change : BitChange) (operand : Operand) (index : Byte) (sub : Register) [Holding R operand] [Flagging R .zero] :
    (operand.numberedBit change index sub).Keeps R := by
  unfold numberedBit; infer_instance

instance (calculate : Word → Word → Word) (operand : Operand) (r : Register) [Setting R r] :
    (operand.adjust calculate r).Keeps R := by
  unfold adjust; infer_instance

instance (operand : Operand) (sub : Register) [Holding R operand] : (operand.storeControl sub).Keeps R := by
  unfold storeControl; infer_instance

section Codes

variable [Coding R]

instance (operand : Operand) (value : Long) [Holding R operand] : (operand.assign value).Keeps R := by
  unfold assign; infer_instance

instance (operand : Operand) (r : Register) [Storing R r operand.size] : (operand.load r).Keeps R := by
  unfold load; infer_instance

instance (calculate : Arithmetic.Calculation) (operand : Operand) (r : Register) [Storing R r operand.size] :
    (operand.accumulate calculate r).Keeps R := by
  unfold accumulate; infer_instance

instance (calculate : Arithmetic.Calculation) (operand : Operand) (r : Register) [Storing R r operand.size] :
    (operand.accumulateExtended calculate r).Keeps R := by
  unfold accumulateExtended; infer_instance

instance (operand : Operand) (r : Register) : (operand.compare r).Keeps R := by
  unfold compare; infer_instance

instance (operand : Operand) (r : Register) [Storing R r operand.size] : (operand.conjoin r).Keeps R := by
  unfold conjoin; infer_instance

instance (combine : Word → Word → Word) (operand : Operand) (r : Register) [Setting R r] :
    (operand.combineWhole combine r).Keeps R := by
  unfold combineWhole; infer_instance

instance (operand : Operand) (index : Byte) (sub : Register) [Holding R operand] : (operand.addQuick index sub).Keeps R := by
  unfold addQuick; infer_instance

instance (shift : Shift) (operand : Operand) [Holding R operand] : (operand.applyShift shift).Keeps R := by
  unfold applyShift; infer_instance

instance (operand : Operand) (index : Byte) (sub : Register) [Holding R operand] : (operand.shift index sub).Keeps R := by
  unfold shift; split <;> infer_instance

instance [Fetching R] (operand : Operand) (index : Byte) (sub : Register) [Holding R operand] :
    (operand.moveImmediate index sub).Keeps R := by
  unfold moveImmediate; split <;> infer_instance

instance [Controlling R] (combine : Long → Long → Long) (operand : Operand) (sub : Register) :
    (operand.combineControl combine sub).Keeps R := by
  unfold combineControl; dsimp only; infer_instance

instance [Controlling R] (operand : Operand) (sub : Register) : (operand.loadControl sub).Keeps R := by
  unfold loadControl; infer_instance

instance [Controlling R] (operand : Operand) (sub : Register) [Holding R operand] : (operand.setBit sub).Keeps R := by
  unfold setBit; infer_instance

instance [Controlling R] (operand : Operand) (sub : Register) [Holding R operand] : (operand.clearBit sub).Keeps R := by
  unfold clearBit; infer_instance

instance (operand : Operand) [Holding R operand] : operand.clear.Keeps R := by
  unfold clear; infer_instance

instance (operand : Operand) : operand.test.Keeps R := by
  unfold test; infer_instance

instance (operand : Operand) [Holding R operand] : operand.complement.Keeps R := by
  unfold complement; infer_instance

instance (operand : Operand) [Holding R operand] : operand.negate.Keeps R := by
  unfold negate; infer_instance

variable [∀ r, Setting R r]

instance (operand : Operand) (index : Byte) (sub : Register) : (operand.unary index sub).Keeps R := by
  unfold unary; split <;> infer_instance

instance (operand : Operand) (index : Byte) (sub : Register) : (operand.move index sub).Keeps R := by
  obtain ⟨place, size, extended⟩ := operand
  unfold move
  cases place <;> cases size <;> (dsimp only; infer_instance)

instance (operand : Operand) (r : Register) : (operand.multiply r).Keeps R := by
  obtain ⟨place, size, extended⟩ := operand
  unfold multiply
  cases size <;> (dsimp only; infer_instance)

set_option synthInstance.maxSize 512 in
instance (operand : Operand) (r : Register) : (operand.divide r).Keeps R := by
  obtain ⟨place, size, extended⟩ := operand
  unfold divide
  cases size <;> (dsimp only; infer_instance)

end Codes

end Operand

namespace Operation

variable (R : Conduct) [Local R] (operand : Operand) (index : Byte) (sub : Register)

theorem execute_keeps {operation : Operation} (h : operation ≠ .moveImmediate) :
    (operation.execute operand index sub).Keeps R := by
  cases operation
  case moveImmediate => exact absurd rfl h
  all_goals
    dsimp only [Operation.execute]
    infer_instance

instance [Fetching R] (operation : Operation) : (operation.execute operand index sub).Keeps R := by
  by_cases h : operation = .moveImmediate
  · subst h
    exact inferInstanceAs ((operand.moveImmediate index sub).Keeps R)
  · exact execute_keeps R operand index sub h

end Operation

instance (R : Conduct) [Local R] [Fetching R] (form : GeneralForm) : form.execute.Keeps R := by
  unfold GeneralForm.execute; infer_instance

namespace Conduct

def Looks : Conduct := fun p calls q => q = p ∧ stores calls = []

instance : Composable Looks where
  refl _ := ⟨rfl, rfl⟩
  trans h h' := ⟨h'.1.trans h.1, by rw [stores_append, h.2, h'.2, List.append_nil]⟩

end Conduct

instance (operand : Operand) : operand.read.Keeps Looks where
  ensures p := by
    obtain ⟨place, size, extended⟩ := operand
    cases place with
    | register r => exact ⟨rfl, rfl⟩
    | memory page offset =>
      cases size with
      | byte => exact fun byte => ⟨rfl, rfl⟩
      | word =>
        simp only [Operand.read, Routine.run_bind, Routine.run_checkAlignment]
        split <;> exact fun high low => ⟨rfl, rfl⟩
    | immediate data => exact ⟨rfl, rfl⟩

end Microcontroller
