import Microcontroller.Proofs.Instruction.Encoding
import Microcontroller.Proofs.Instruction.Twins
import Microcontroller.Proofs.Processor.StackAccess

namespace Microcontroller

open Dialogue Memory Processor Routine
open Instruction (step)
open Twin (withRegister wordCode)

def Routine.pushAll : (words : List Word) → Routine Unit
  | [] => pure ()
  | word :: words => do
    pushAll words
    push word

inductive CallForm where
  | relative (offset : Byte)
  | relativeWord (offset : Word)
  | absolute (target : Word)
  | indirect (r : Register)
  | paged (page : Byte) (target : Word)
  | pageIndirect (r : Register)
  deriving DecidableEq

namespace CallForm

def code : CallForm → List Byte
  | relative offset => [0x0E, offset]
  | relativeWord offset => 0x1E :: wordCode offset
  | absolute target => 0x18 :: wordCode target
  | indirect r => [0x11, withRegister 0xD8 r]
  | paged page target => 0x03 :: page :: wordCode target
  | pageIndirect r => [0x11, withRegister 0xC8 r]

def far : CallForm → Bool
  | paged _ _ | pageIndirect _ => true
  | _ => false

def returnCode (form : CallForm) : List Byte := if form.far then [0x11, 0x19] else [0x19]

def frame (form : CallForm) (codePage : Byte) (pc : Word) : List Word :=
  if form.far then [codePage.setWidth 16, pc] else [pc]

def words (form : CallForm) : Nat := if form.far then 2 else 1

theorem length_frame (form : CallForm) (codePage : Byte) (pc : Word) : (form.frame codePage pc).length = form.words := by
  rw [frame, words]
  split <;> rfl

def target (form : CallForm) (p : Processor) : Word :=
  match form with
  | relative offset => p.pc + offset.signExtend 16
  | relativeWord offset => p.pc + offset
  | absolute target | paged _ target => target
  | indirect r => p.reg r
  | pageIndirect r => p.reg (pairLow r)

def targetPage (form : CallForm) (p : Processor) : Byte :=
  match form with
  | paged page _ => page
  | pageIndirect r => lowByte (p.reg (pairHigh r))
  | _ => p.codePage

def enter (form : CallForm) (p : Processor) : Processor :=
  { p with pc := form.target p, codePage := form.targetPage p }

theorem pair_ne_stackPointer :
    ∀ r : Register, r ≠ 6 → r ≠ 7 → pairHigh r ≠ stackPointer ∧ pairLow r ≠ stackPointer := by decide

/-- What a call enters, except where the stack pointer names the target. -/
def Enters (form : CallForm) (before after : Processor) : Prop :=
  let pc := before.pc + BitVec.ofNat 16 form.code.length
  match form with
  | relative offset => after.codePage = before.codePage ∧ after.pc = pc + offset.signExtend 16
  | relativeWord offset => after.codePage = before.codePage ∧ after.pc = pc + offset
  | absolute target => after.codePage = before.codePage ∧ after.pc = target
  | indirect r => r ≠ 7 → after.codePage = before.codePage ∧ after.pc = before.reg r
  | paged page target => after.codePage = page ∧ after.pc = target
  | pageIndirect r =>
    r ≠ 6 → r ≠ 7 → after.codePage = lowByte (before.reg (pairHigh r)) ∧ after.pc = before.reg (pairLow r)

theorem enters_enter {form : CallForm} {p q : Processor} (hpc : q.pc = p.pc + BitVec.ofNat 16 form.code.length)
    (hpage : q.codePage = p.codePage) (hreg : ∀ r, r ≠ stackPointer → q.reg r = p.reg r) :
    form.Enters p (form.enter q) := by
  cases form with
  | relative | relativeWord => exact ⟨hpage, by rw [← hpc]; rfl⟩
  | absolute => exact ⟨hpage, rfl⟩
  | indirect r => exact fun hr => ⟨hpage, hreg r hr⟩
  | paged => exact ⟨rfl, rfl⟩
  | pageIndirect r =>
    intro hr hr'
    have hpair := pair_ne_stackPointer r hr hr'
    exact ⟨congrArg lowByte (hreg _ hpair.1), hreg _ hpair.2⟩

theorem targetPage_near {form : CallForm} (h : form.far = false) (p : Processor) : form.targetPage p = p.codePage := by
  cases form with
  | paged | pageIndirect => exact absurd h nofun
  | _ => rfl

def routine (form : CallForm) : Routine Unit := do
  let p ← get
  pushAll (form.frame p.codePage p.pc)
  modify form.enter

theorem routine_near {form : CallForm} (h : form.far = false) :
    form.routine = (do
      let p ← get
      push p.pc
      modify form.enter) := by
  simp only [routine, frame, h, Bool.false_eq_true, if_false, pushAll, pure_bind]

theorem routine_far {form : CallForm} (h : form.far = true) :
    form.routine = (do
      let p ← get
      push p.pc
      push (p.codePage.setWidth 16)
      modify form.enter) := by
  simp only [routine, frame, h, if_true, pushAll, pure_bind, LawfulMonad.bind_assoc]

theorem step_takes (form : CallForm) (p : Processor) :
    Takes p.codePage p.pc form.code (step.run p)
      (completed (form.routine.run { p with pc := advance p.pc form.code.length })) := by
  cases form with
  | relative offset =>
    have hform : (Form.ofByte 0x0E).execute 0x0E = liftM (Instruction.callRelative 0x0E) := rfl
    apply Instruction.step_takes hform
    exact ⟨_, rfl, rfl⟩
  | relativeWord offset =>
    have hform : (Form.ofByte 0x1E).execute 0x1E = liftM (Instruction.callRelative 0x1E) := rfl
    apply Instruction.step_takes hform
    apply Takes.bind
    exact (fetchWord_takes { p with pc := p.pc + 1 } offset).bind_eq rfl
  | absolute target =>
    have hform : (Form.ofByte 0x18).execute 0x18 = liftM Instruction.call := rfl
    apply Instruction.step_takes hform
    apply Takes.bind
    exact (fetchWord_takes { p with pc := p.pc + 1 } target).bind_eq rfl
  | indirect r =>
    have hsecond : withRegister 0xD8 r ≠ 0x19 ∧ (withRegister 0xD8 r >>> 3).toNat = 0x1B ∧
        registerField (withRegister 0xD8 r) = r := by decide +revert
    have hform : (Form.ofByte 0x11).execute 0x11 = Instruction.jumpIndirect 0x11 := rfl
    apply Instruction.step_takes hform
    rw [Instruction.jumpIndirect, Attempt.run_bind, Attempt.run_lift, Routine.run_fetch, fetch_bind, fetch_bind,
      takes_fetch, takes_nil]
    simp only [done_bind, hsecond, if_false]
    rw [← run_liftM, routine_near rfl]
    simp only [Attempt.lift_bind]
    rfl
  | paged page target =>
    have hform : (Form.ofByte 0x03).execute 0x03 = liftM Instruction.callPage := rfl
    apply Instruction.step_takes hform
    apply Takes.bind
    rw [routine_far rfl]
    refine ⟨_, rfl, ?_⟩
    exact (fetchWord_takes { p with pc := p.pc + 1 + 1 } target).bind_eq rfl
  | pageIndirect r =>
    have hsecond : withRegister 0xC8 r ≠ 0x19 ∧ (withRegister 0xC8 r >>> 3).toNat = 0x19 ∧
        registerField (withRegister 0xC8 r) = r := by decide +revert
    have hform : (Form.ofByte 0x11).execute 0x11 = Instruction.jumpIndirect 0x11 := rfl
    apply Instruction.step_takes hform
    rw [Instruction.jumpIndirect, Attempt.run_bind, Attempt.run_lift, Routine.run_fetch, fetch_bind, fetch_bind,
      takes_fetch, takes_nil]
    simp only [done_bind, hsecond, if_false]
    rw [← run_liftM, routine_far rfl]
    simp only [Attempt.lift_bind]
    rfl

def returns (form : CallForm) : Routine Unit :=
  if form.far then Instruction.returnToPage else Instruction.returnFromCall

theorem return_takes (form : CallForm) (p : Processor) :
    Takes p.codePage p.pc form.returnCode (step.run p)
      (completed (form.returns.run { p with pc := advance p.pc form.returnCode.length })) := by
  rw [returnCode, returns]
  split
  · have hform : (Form.ofByte 0x11).execute 0x11 = Instruction.jumpIndirect 0x11 := rfl
    apply Instruction.step_takes hform
    rw [Instruction.jumpIndirect, Attempt.run_bind, Attempt.run_lift, Routine.run_fetch, fetch_bind, fetch_bind,
      takes_fetch, takes_nil]
    rfl
  · have hform : (Form.ofByte 0x19).execute 0x19 = liftM Instruction.returnFromCall := rfl
    exact Instruction.step_takes hform rfl

end CallForm

def dropBytes (count : Byte) : Attempt Unit := do
  let pointer := (← get).reg stackPointer + displacement count
  setReg stackPointer pointer
  if pointer.getLsbD 0 then throw (.misalignedStack pointer)

theorem dropBytes_run (count : Byte) (p : Processor) (m : Memory) :
    let pointer := p.reg stackPointer + displacement count
    (((dropBytes count).run p).bind Instruction.reported).run m =
      ((if pointer.getLsbD 0 then .error (.misalignedStack pointer) else .ok (), p.setReg stackPointer pointer), m) := by
  intro pointer
  have hrun : (dropBytes count).run p = .done (if pointer.getLsbD 0 then .error (.misalignedStack pointer) else .ok (),
      p.setReg stackPointer pointer) := by
    simp only [dropBytes, Attempt.run_bind, Attempt.run_get, Attempt.run_lift, done_bind]
    change (ite (pointer.getLsbD 0) _ _ : Attempt Unit).run _ = _
    split <;> rfl
  rw [hrun, done_bind, Instruction.run_reported]

theorem returnAndDrop_takes (p : Processor) (count : Byte) :
    Takes p.codePage p.pc [0x14, count] (step.run p)
      (((Instruction.returnFromCall.run { p with pc := p.pc + 1 + 1 }).bind fun r => (dropBytes count).run r.2).bind
        Instruction.reported) := by
  have hform : (Form.ofByte 0x14).execute 0x14 = Instruction.returnAndDrop 0x14 := rfl
  apply Instruction.step_takes_reported hform
  rw [Instruction.returnAndDrop, Attempt.run_bind, Attempt.run_lift, run_fetchDisplacement, fetch_bind, fetch_bind,
    takes_fetch, takes_nil]
  simp only [done_bind, Attempt.run_bind, Attempt.run_lift, Dialogue.bind_assoc]
  rfl

end Microcontroller
