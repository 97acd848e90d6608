import Microcontroller.Proofs.Instruction.CodeOrder
import Microcontroller.Proofs.Instruction.FormVerdict

namespace Microcontroller

open Conduct Dialogue Grammar Processor Routine

structure ControlState where
  masked : Word
  base : Byte
  dataPage : Byte
  extendedPage : Byte
  stackPage : Byte
  asleep : Bool
  holdsInterrupts : Bool
  deriving DecidableEq

def Processor.control (p : Processor) : ControlState :=
  ⟨p.status.masked, p.base, p.dataPage, p.extendedPage, p.stackPage, p.asleep, p.holdsInterrupts⟩

def ControlState.IsGenuine (c : ControlState) : Prop := c.masked &&& ~~~0x870F = 0

theorem isGenuine_control (p : Processor) : p.control.IsGenuine ↔ p.status.bits &&& ~~~0x870F = 0 := by
  have hmask : (0xFFF0 : Word) &&& ~~~0x870F = ~~~0x870F := by decide
  rw [ControlState.IsGenuine, Processor.control, Status.masked, BitVec.and_assoc, hmask]

theorem isGenuine_of_ofWord {p : Processor} {word : Word} (h : p.status = Status.ofWord word) : p.control.IsGenuine := by
  rw [isGenuine_control, h, Status.ofWord, BitVec.and_assoc]
  exact BitVec.and_zero

namespace Conduct

def Discreet : Conduct := fun p _ q => q.control = p.control

instance : Computing Discreet where
  refl _ := rfl
  trans h h' := h'.trans h
  compute h hmasked := by
    rw [Discreet, Processor.control, Processor.control, hmasked, h]

instance : Accessing Discreet where
  read _ _ _ := rfl
  write _ _ _ := rfl
  report _ _ _ := rfl

instance : Fetching Discreet := ⟨fun _ _ => rfl⟩

instance : Jumping Discreet := ⟨fun _ _ _ => rfl⟩

end Conduct

theorem Attempt.keeps_bind {α β : Type} (R : Conduct) [Composable R] {x : Attempt α} {f : α → Attempt β} (hx : x.Keeps R)
    (hf : ∀ value, (f value).Keeps R) : (x >>= f).Keeps R := inferInstance

section Keeps

variable (R : Conduct) [Computing R] [Accessing R] [Fetching R]

def Operation.loadsControl (operation : Operation) (immediate : Bool) : Bool :=
  match operation with
  | .loadControl => true
  | .setBit | .clearBit => immediate
  | _ => false

theorem Operation.execute_computes {operation : Operation} {operand : Operand} (index : Byte) (sub : Register)
    (h : operation.loadsControl operand.isImmediate = false) : (operation.execute operand index sub).Keeps R := by
  cases operation
  case loadControl => cases h
  case setBit =>
    have himmediate : operand.isImmediate = false := h
    rw [Operation.execute, Operand.setBit, himmediate, if_neg Bool.false_ne_true]
    infer_instance
  case clearBit =>
    have himmediate : operand.isImmediate = false := h
    rw [Operation.execute, Operand.clearBit, himmediate, if_neg Bool.false_ne_true]
    infer_instance
  all_goals
    dsimp only [Operation.execute, Operand.addQuick, Operand.accumulate, Operand.accumulateExtended,
      Operand.compare, Operand.adjust, Operand.combineWhole, Operand.conjoin, Operand.testBit, Operand.numberedBit,
      Operand.storeControl]
    infer_instance

end Keeps

def Form.computes : Form → Bool
  | .general | .returnFromException | .sleep | .compareImmediate | .moveByte | .moveWord | .loadShort | .storeShort
  | .moveFrame => true
  | _ => false

section Steering

variable (R : Conduct) [Accessing R] [Fetching R] [Jumping R] [∀ r, Setting R r]

open Instruction

instance : returnFromCall.Keeps R := by unfold returnFromCall; infer_instance

instance : returnToPage.Keeps R := by unfold returnToPage; infer_instance

instance (byte : Byte) : (jumpIndirect byte).Keeps R := by
  unfold jumpIndirect
  refine Attempt.keeps_bind R inferInstance fun second => ?_
  dsimp only
  split
  · infer_instance
  · split <;> infer_instance

set_option synthInstance.maxSize 512 in
instance (gate : Status → Bool) (byte : Byte) : (countDown gate byte).Keeps R := by
  unfold countDown; infer_instance

instance (byte : Byte) : (jumpGroup byte).Keeps R := by
  unfold jumpGroup; split <;> infer_instance

set_option synthInstance.maxSize 512 in
instance (byte : Byte) : (returnAndDrop byte).Keeps R := by
  unfold returnAndDrop; infer_instance

theorem Instruction.execute_steers {form : Form} (byte : Byte) (h : form.computes = false) : (form.execute byte).Keeps R := by
  cases form
  case general | returnFromException | sleep | compareImmediate | moveByte | moveWord | loadShort | storeShort | moveFrame =>
    cases h
  all_goals
    dsimp only [Form.execute, loadMultiple, callPage, softwareTrap, callRelative, storeMultiple, jumpPage, call,
      branchConditionally]
    infer_instance

end Steering

theorem Instruction.execute_computes (R : Conduct) [Computing R] [Accessing R] [Fetching R] [Jumping R] {form : Form}
    (byte : Byte) (hgeneral : form ≠ .general) (hreturn : form ≠ .returnFromException) (hsleep : form ≠ .sleep) :
    (form.execute byte).Keeps R := by
  cases h : form.computes with
  | false => exact execute_steers R byte h
  | true =>
    cases form
    case general => exact absurd rfl hgeneral
    case returnFromException => exact absurd rfl hreturn
    case sleep => exact absurd rfl hsleep
    case compareImmediate | moveByte | moveWord | loadShort | storeShort | moveFrame =>
      dsimp only [Form.execute, compareImmediate, moveByte, moveWord]
      infer_instance
    all_goals cases h

/-- A control register has been loaded: interrupts wait, and whatever else has changed the processor sleeps no more and
no less than before and its status has only bits that exist. -/
structure ControlState.Loaded (before after : ControlState) : Prop where
  holds : after.holdsInterrupts = true
  asleep : after.asleep = before.asleep
  genuine : before.IsGenuine → after.IsGenuine

def ControlState.LoadsOrTraps (before : ControlState) (r : Except Trap Unit × Processor) : Prop :=
  match r.1 with
  | .ok _ => before.Loaded r.2.control
  | .error _ => r.2.control = before

theorem ControlRegister.write_control (register : ControlRegister) (data : Long) (p : Processor) :
    p.control.Loaded { (register.write data p).control with holdsInterrupts := true } := by
  refine ⟨rfl, ?_, ?_⟩
  · cases register <;> rfl
  · intro h
    cases register with
    | status | conditionCodes => exact isGenuine_of_ofWord rfl
    | _ => exact h

namespace Operand

theorem read_discreet (operand : Operand) (p : Processor) :
    (operand.read.run p).Ensures fun _ r => r.2.control = p.control :=
  (inferInstance : operand.read.Keeps Discreet).ensures p

theorem loadControl_loads (operand : Operand) (sub : Register) (p : Processor) :
    ((operand.loadControl sub).run p).Ensures fun _ r => p.control.LoadsOrTraps r := by
  unfold loadControl
  simp only [Attempt.run_bind, Attempt.run_lift, Dialogue.bind_assoc, done_bind, ensures_bind]
  apply (operand.read_discreet p).mono
  rintro calls ⟨data, q⟩ hcontrol
  rw [← hcontrol]
  obtain ⟨register, h, -⟩ | ⟨h, -⟩ := Attempt.control_cases operand.size sub
  · rw [Attempt.writeControl_of_some h]
    exact register.write_control data q
  · rw [Attempt.writeControl_of_none h]
    exact rfl

theorem combineControl_loads (combine : Long → Long → Long) (operand : Operand) (sub : Register) (p : Processor) :
    ((operand.combineControl combine sub).run p).Ensures fun _ r => p.control.LoadsOrTraps r := by
  unfold combineControl
  simp only [Attempt.run_bind, Attempt.run_lift, Dialogue.bind_assoc, done_bind, ensures_bind]
  apply (operand.read_discreet p).mono
  rintro calls ⟨data, q⟩ hcontrol
  rw [← hcontrol]
  obtain ⟨register, h, -⟩ | ⟨h, -⟩ := Attempt.control_cases operand.size sub
  · rw [Attempt.readControl_of_some h]
    simp only [Attempt.writeControl_of_some h]
    let value := combine (register.read operand.size q) data
    let written := register.write value q
    have hloaded : q.control.Loaded { written.control with holdsInterrupts := true } := register.write_control value q
    have hreported : (written.updateStatus (·.withResult value operand.size)).control = written.control :=
      congrArg (fun masked => { written.control with masked := masked }) (Status.masked_withResult _ value operand.size)
    split
    · rw [← hreported] at hloaded
      exact hloaded
    · exact hloaded
  · rw [Attempt.readControl_of_none h]
    exact rfl

end Operand

theorem Operation.execute_loads {operation : Operation} {operand : Operand} (index : Byte) (sub : Register)
    (h : operation.loadsControl operand.isImmediate = true) (p : Processor) :
    ((operation.execute operand index sub).run p).Ensures fun _ r => p.control.LoadsOrTraps r := by
  cases operation
  case loadControl => exact operand.loadControl_loads sub p
  case setBit =>
    have himmediate : operand.isImmediate = true := h
    rw [Operation.execute, Operand.setBit, himmediate, if_pos rfl]
    exact operand.combineControl_loads _ sub p
  case clearBit =>
    have himmediate : operand.isImmediate = true := h
    rw [Operation.execute, Operand.clearBit, himmediate, if_pos rfl]
    exact operand.combineControl_loads _ sub p
  all_goals cases h

theorem Instruction.returnFromException_loads (p : Processor) :
    (Instruction.returnFromException.run p).Ensures fun _ r => p.control.Loaded r.2.control := by
  unfold Instruction.returnFromException
  simp only [Routine.run_bind, ensures_bind]
  apply ((inferInstance : Routine.pop.Keeps Discreet).ensures p).mono
  rintro calls ⟨status, q⟩ hpop
  let loaded := q.updateStatus fun _ => Status.ofWord status
  apply ((inferInstance : Instruction.returnToPage.Keeps Discreet).ensures loaded).mono
  rintro more ⟨_, r⟩ hreturn
  refine ⟨rfl, ?_, fun _ => ?_⟩
  · have hasleep : q.control.asleep = p.control.asleep := congrArg ControlState.asleep hpop
    exact (congrArg ControlState.asleep hreturn).trans hasleep
  · change r.control.IsGenuine
    rw [show r.control = loaded.control from hreturn]
    exact isGenuine_of_ofWord rfl

theorem GeneralForm.Decoded.operation?_eq {mode code : Byte} {p q : Processor} {calls : List Call} {form : GeneralForm}
    {bytes : List Byte} (h : Decoded mode p calls form q bytes code) (hmode : isMode mode = true) (more : List Call) :
    operation? (mode :: codeBytes (calls ++ more)) = some (form.operand.extended, code) := by
  rw [codeBytes_append, h.codeBytes_eq, operation?, if_pos hmode, List.append_assoc, ← h.length_bytes, List.drop_left]
  cases hextended : form.operand.extended with
  | true => rfl
  | false => exact if_neg (h.code_ne_zero hextended)

theorem Operation.loadsControl_ofSlot (code : Byte) (immediate : Bool) :
    (Operation.ofSlot ((code >>> 3).setWidth 5).toFin).loadsControl immediate =
      decide (code >>> 3 = 0x11 ∨ immediate = true ∧ (code >>> 3 = 0x09 ∨ code >>> 3 = 0x0B)) := by
  cases immediate <;> decide +revert

theorem Operand.isImmediate_iff (operand : Operand) : operand.isImmediate = true ↔ operand.place.kind = .immediate := by
  obtain ⟨place, size, extended⟩ := operand
  cases place <;> simp [isImmediate, Place.kind]

namespace Instruction

def Settles (before : ControlState) (code : List Byte) (r : Except Trap Unit × Processor) : Prop :=
  if loadsControl code then before.LoadsOrTraps r
  else if code.head? = some 0x0A then r.1 = .ok () ∧ before.Loaded r.2.control
  else if code.head? = some 0x1A then r.2.control = { before with asleep := true }
  else r.2.control = before

theorem general_settles (mode : Byte) (p : Processor) (h : isMode mode = true) :
    ((Form.execute .general mode).run p).Ensures fun calls r => Settles p.control (mode :: codeBytes calls) r := by
  have hhead : mode ≠ 0x0A ∧ mode ≠ 0x1A := by decide +revert
  have hdecode := (inferInstance : (GeneralForm.decode mode).Keeps Discreet).ensures p
  rw [ensures_general]
  apply ((GeneralForm.decode_ensures mode p h).and hdecode).mono
  rintro calls ⟨form, q⟩ ⟨⟨bytes, code, hdecoded⟩, hcontrol⟩
  have hloads (more : List Call) : loadsControl (mode :: codeBytes (calls ++ more)) =
      (Operation.ofSlot form.slot).loadsControl form.operand.isImmediate := by
    rw [loadsControl, hdecoded.operation?_eq h, GeneralForm.slot, hdecoded.index, Operation.loadsControl_ofSlot,
      Option.any_some, decide_eq_decide, Operand.isImmediate_iff, hdecoded.kind]
    simp [hasImmediate]
  simp only [Settles, hloads]
  cases hoperation : (Operation.ofSlot form.slot).loadsControl form.operand.isImmediate with
  | true =>
    apply (Operation.execute_loads form.index form.sub hoperation q).mono
    intro more r hr
    rw [show q.control = p.control from hcontrol] at hr
    exact hr
  | false =>
    apply ((Operation.execute_computes Discreet form.index form.sub hoperation).ensures q).mono
    intro more r hr
    simp only [Bool.false_eq_true, if_false, List.head?_cons, Option.some.injEq, hhead]
    exact Eq.trans hr hcontrol

theorem loadsControl_of_not_isMode {first : Byte} (h : isMode first = false) (rest : List Byte) :
    loadsControl (first :: rest) = false := by
  rw [loadsControl, operation?, h]
  rfl

theorem form_settles (first : Byte) (p : Processor) :
    (((Form.ofByte first).execute first).run p).Ensures fun calls r => Settles p.control (first :: codeBytes calls) r := by
  cases hmode : isMode first with
  | true =>
    rw [ofByte_of_isMode hmode]
    exact general_settles first p hmode
  | false =>
    simp only [Settles, loadsControl_of_not_isMode hmode, Bool.false_eq_true, if_false, List.head?_cons,
      Option.some.injEq]
    by_cases hreturn : first = 0x0A
    · subst hreturn
      change ((liftM returnFromException : Attempt Unit).run p).Ensures _
      rw [Attempt.ensures_lift]
      exact (returnFromException_loads p).mono fun _ _ h => ⟨rfl, h⟩
    by_cases hsleep : first = 0x1A
    · subst hsleep
      exact rfl
    simp only [hreturn, hsleep, if_false]
    have hforms : Form.ofByte first ≠ .general ∧ Form.ofByte first ≠ .returnFromException ∧
        Form.ofByte first ≠ .sleep := by decide +revert
    exact (execute_computes Discreet first hforms.1 hforms.2.1 hforms.2.2).ensures p

theorem step_settles (p : Processor) :
    (step.run p).Ensures fun calls r => Settles p.control (codeBytes calls) r := by
  rw [ensures_step]
  intro first
  apply (form_settles first { p with pc := p.pc + 1 }).mono
  intro calls r h
  rw [codeBytes_announced]
  exact h

def attempts : Nat → Routine Unit
  | 0 => pure ()
  | n + 1 => do
    let _ ← step.outcome
    attempts n

theorem Settles.genuine {before : ControlState} {code : List Byte} {r : Except Trap Unit × Processor}
    (h : Settles before code r) (hbefore : before.IsGenuine) : r.2.control.IsGenuine := by
  unfold Settles at h
  split at h
  · obtain ⟨result, q⟩ := r
    cases result with
    | ok value => exact h.genuine hbefore
    | error trap => exact (show q.control = before from h) ▸ hbefore
  split at h
  · exact h.2.genuine hbefore
  split at h
  · rw [h]
    exact hbefore
  · rw [h]
    exact hbefore

theorem attempts_genuine (n : Nat) {p : Processor} (hp : p.control.IsGenuine) :
    ((attempts n).run p).Ensures fun _ r => r.2.control.IsGenuine := by
  induction n generalizing p with
  | zero => exact hp
  | succ n ih =>
    rw [attempts, Routine.run_bind, ensures_bind]
    apply (step_settles p).mono
    intro calls r h
    exact ih (h.genuine hp)

theorem head_ne_of_loadsControl {code : List Byte} (h : loadsControl code = true) :
    code.head? ≠ some 0x0A ∧ code.head? ≠ some 0x1A := by
  cases code with
  | nil => exact ⟨nofun, nofun⟩
  | cons first rest =>
    have hmode : isMode first = true := by
      rw [← Bool.not_eq_false]
      intro hmode
      rw [loadsControl_of_not_isMode hmode] at h
      cases h
    rw [List.head?_cons, ne_eq, Option.some_inj, ne_eq, Option.some_inj]
    clear h
    decide +revert

def Governs (code : List Byte) (result : Except Trap Unit) : Prop :=
  code.head? = some 0x0A ∨ loadsControl code = true ∧ result = .ok ()

theorem Settles.cases {before : ControlState} {code : List Byte} {r : Except Trap Unit × Processor}
    (h : Settles before code r) :
    (Governs code r.1 ∧ before.Loaded r.2.control ∧ code.head? ≠ some 0x1A) ∨
      (¬Governs code r.1 ∧
        r.2.control = { before with asleep := before.asleep || decide (code.head? = some 0x1A) }) := by
  unfold Settles at h
  split at h
  next hloads =>
    obtain ⟨hreturn, hsleep⟩ := head_ne_of_loadsControl hloads
    obtain ⟨result, q⟩ := r
    cases result with
    | ok value => exact .inl ⟨.inr ⟨hloads, rfl⟩, h, hsleep⟩
    | error trap =>
      refine .inr ⟨?_, ?_⟩
      · rintro (hhead | ⟨-, hok⟩)
        · exact hreturn hhead
        · cases hok
      · rw [decide_eq_false hsleep, Bool.or_false]
        exact h
  next hloads =>
    split at h
    next hreturn =>
      refine .inl ⟨.inl hreturn, h.2, ?_⟩
      rw [hreturn]
      decide
    next hreturn =>
      have hgoverns : ¬Governs code r.1 := by
        rintro (hhead | ⟨hcode, -⟩)
        · exact hreturn hhead
        · exact hloads hcode
      split at h
      next hsleep =>
        rw [decide_eq_true hsleep, Bool.or_true]
        exact .inr ⟨hgoverns, h⟩
      next hsleep =>
        rw [decide_eq_false hsleep, Bool.or_false]
        exact .inr ⟨hgoverns, h⟩

theorem control_state_changes {σ : Type} [Host σ] (p : Processor) (host : σ)
    (hstatus : p.status.bits &&& ~~~0x870F = 0) :
    (∀ n, (((attempts n).run p).run host).1.2.status.bits &&& ~~~0x870F = 0) ∧
      let code := codeBytes ((step.run p).transcript host)
      let result := ((step.run p).run host).1
      let q := result.2
      (q.status.bits &&& 0x8700 ≠ p.status.bits &&& 0x8700 ∨ q.base ≠ p.base ∨ q.dataPage ≠ p.dataPage ∨
          q.extendedPage ≠ p.extendedPage ∨ q.stackPage ≠ p.stackPage →
        Governs code result.1 ∧ q.holdsInterrupts = true) ∧
        (q.holdsInterrupts = true ↔ p.holdsInterrupts = true ∨ Governs code result.1) ∧
        (q.asleep = true ↔ p.asleep = true ∨ code.head? = some 0x1A) := by
  constructor
  · intro n
    exact (isGenuine_control _).mp ((attempts_genuine n ((isGenuine_control p).mpr hstatus)).transcript host)
  intro code result q
  have hsettles : Settles p.control code result := (step_settles p).transcript host
  obtain ⟨hgoverns, hloaded, hsleep⟩ | ⟨hgoverns, hcontrol⟩ := hsettles.cases
  · have hasleep : q.asleep = p.asleep := hloaded.asleep
    refine ⟨fun _ => ⟨hgoverns, hloaded.holds⟩, ?_, ?_⟩
    · exact iff_of_true hloaded.holds (.inr hgoverns)
    · rw [hasleep, or_iff_left hsleep]
  · have hmasked : q.status.masked = p.status.masked := congrArg ControlState.masked hcontrol
    have hbits (s : Status) : s.bits &&& 0x8700 = s.masked &&& 0x8700 := by
      rw [Status.masked, BitVec.and_assoc]
      rfl
    have hholds : q.holdsInterrupts = p.holdsInterrupts := congrArg ControlState.holdsInterrupts hcontrol
    have hasleep : q.asleep = (p.asleep || decide (code.head? = some 0x1A)) := congrArg ControlState.asleep hcontrol
    refine ⟨?_, ?_, ?_⟩
    · rintro (hchanged | hchanged | hchanged | hchanged | hchanged)
      · exact absurd ((hbits _).trans ((congrArg (· &&& 0x8700) hmasked).trans (hbits _).symm)) hchanged
      · exact absurd (congrArg ControlState.base hcontrol) hchanged
      · exact absurd (congrArg ControlState.dataPage hcontrol) hchanged
      · exact absurd (congrArg ControlState.extendedPage hcontrol) hchanged
      · exact absurd (congrArg ControlState.stackPage hcontrol) hchanged
    · rw [hholds, or_iff_left hgoverns]
    · rw [hasleep, Bool.or_eq_true, decide_eq_true_iff]

theorem control_state_changes_on_return :
    let p := Processor.new.setReg 7 0x2000
    let m := ((Memory.filled 0).store 0 #[0x0A, 0x0C, 0xFF, 0xFF, 0x88]).store 0x2000 #[0xFF, 0xFF, 0x00, 0x00, 0x00, 0x01]
    let returned := ((step.run p).run m).1.2
    returned.status.bits = 0x870F ∧ returned.holdsInterrupts = true ∧ returned.asleep = false ∧
      (((attempts 3).run p).run m).1.2.status.bits &&& ~~~0x870F = 0 := by
  intro p m returned
  have hstatus : p.status.bits &&& ~~~0x870F = 0 := by decide
  have hcode : (codeBytes ((step.run p).transcript m)).head? = some 0x0A := by decide +kernel
  have hbits : returned.status.bits = 0x870F := by decide +kernel
  obtain ⟨hruns, hchanged, -, hasleep⟩ := control_state_changes p m hstatus
  have hmask : returned.status.bits &&& 0x8700 ≠ p.status.bits &&& 0x8700 := by
    rw [hbits]
    decide
  refine ⟨hbits, (hchanged (.inl hmask)).2, ?_, hruns 3⟩
  rw [Bool.eq_false_iff, ne_eq, hasleep, hcode]
  decide

end Instruction

end Microcontroller
