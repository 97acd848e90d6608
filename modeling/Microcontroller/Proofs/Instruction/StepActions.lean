import Microcontroller.Proofs.Instruction.ControlState
import Microcontroller.Proofs.Instruction.ShortForms
import Microcontroller.Proofs.Instruction.StackActions

namespace Microcontroller

open Conduct Dialogue Grammar Interrupt
open Processor (framePointer stackPointer)

namespace Grammar

def location (p : Processor) (mode : Byte) (bytes : List Byte) : Byte × Word :=
  let r := registerField mode
  let stride : Word := if Size.field mode = .word ∨ r = stackPointer then 2 else 1
  let word := wordOf (bytes.getD 0 0) (bytes.getD 1 0)
  if mode = 0x05 ∨ mode = 0x0D then (0, wordOf p.base (bytes.getD 0 0))
  else if mode = 0x15 ∨ mode = 0x1D then (p.dataPage, word)
  else if mode < 0xC0 then (p.pageOf r, p.reg r - stride)
  else if mode < 0xE0 then (p.pageOf r, p.reg r)
  else if mode < 0xF0 then (p.pageOf r, p.reg r + (bytes.getD 0 0).signExtend 16)
  else (p.pageOf r, p.reg r + word)

def operandActions (p : Processor) (mode : Byte) (bytes : List Byte) (direction : Direction) : List Action :=
  match Kind.ofMode mode, direction with
  | .register, _ => []
  | .memory, direction =>
    let place := location p mode bytes
    [.access direction (Size.field mode) true place.1 place.2]
  | .immediate, .load => []
  | .immediate, .store => [.invalidInstruction]

def generalActions (p : Processor) (mode : Byte) (bytes : List Byte) : List Action :=
  match operation? (mode :: bytes) with
  | none => []
  | some (escaped, code) =>
    (uses (Kind.ofMode mode) (Size.field mode) escaped (code >>> 3) (registerField code)).flatMap
      (operandActions p mode bytes)

def softwareTrap? : List Byte → Option (BitVec 4)
  | first :: second :: _ => if first = 0x08 ∧ 0x10 ≤ second ∧ second ≤ 0x1F then some (second.setWidth 4) else none
  | _ => none

def actions (p : Processor) : List Byte → List Action
  | [] => []
  | first :: rest =>
    let second := rest.headD 0
    if isMode first then generalActions p first rest
    else if 0x60 ≤ first ∧ first < 0x80 then
      [.access (if first < 0x70 then .load else .store) (Size.field first) true 0 (wordOf p.base second)]
    else if 0x80 ≤ first ∧ first < 0xA0 then
      [.access (if first < 0x90 then .load else .store) (if 0x88 ≤ first ∧ first < 0x98 then .word else .byte) false
        p.stackPage (p.reg framePointer + second.signExtend 16)]
    else if first = 0x08 then (softwareTrap? (first :: rest)).toList.map .softwareTrap
    else stackActions (p.reg stackPointer) (stackUses first second)

/-- Whether an operation stores to its immediate operand. One that is refused does not, but quick additions are refused
only afterwards. -/
def storesToImmediate (code : List Byte) : Bool :=
  hasImmediate code && (operation? code).any fun operation : Bool × Byte =>
    let index := operation.2 >>> 3
    index = 0x01 ∨ index = 0x12 ∧ operation.1 = false ∨
      index = 0x13 ∧ controlRegisters.contains (Size.field (code.headD 0), registerField operation.2)

end Grammar

namespace AddressingMode

theorem resolve_location (mode : Byte) (p : Processor) (h : isMode mode = true) (hkind : Kind.ofMode mode = .memory) :
    (((ofByte mode).resolve (Size.field mode)).run p).Ensures fun calls r => ∀ more,
      r.1 = .memory (location p mode (codeBytes calls ++ more)).1 (location p mode (codeBytes calls ++ more)).2 := by
  have hmode : if mode = 0x05 ∨ mode = 0x0D then ofByte mode = shortAbsolute
      else if mode = 0x15 ∨ mode = 0x1D then ofByte mode = absolute
      else if mode < 0xC0 then ofByte mode = preDecrement (registerField mode)
      else if mode < 0xD0 then ofByte mode = postIncrement (registerField mode)
      else if mode < 0xE0 then ofByte mode = indirect (registerField mode)
      else if mode < 0xF0 then ofByte mode = byteDisplaced (registerField mode)
      else ofByte mode = wordDisplaced (registerField mode) := by
    decide +revert
  unfold location
  by_cases hshort : mode = 0x05 ∨ mode = 0x0D
  · simp only [hshort, if_true] at hmode ⊢
    rw [hmode]
    exact fun byte more => rfl
  by_cases habsolute : mode = 0x15 ∨ mode = 0x1D
  · simp only [hshort, habsolute, if_true, if_false] at hmode ⊢
    rw [hmode]
    exact fun high low more => rfl
  by_cases hdecrement : mode < 0xC0
  · simp only [hshort, habsolute, hdecrement, if_true, if_false] at hmode ⊢
    rw [hmode]
    intro more
    refine congrArg (Place.memory (p.pageOf (registerField mode))) ?_
    rw [Processor.reg_setReg, if_pos rfl]
    exact BitVec.add_zero _
  by_cases hincrement : mode < 0xD0
  · have hbelow : mode < 0xE0 := by bv_omega
    simp only [hshort, habsolute, hdecrement, hincrement, hbelow, if_true, if_false] at hmode ⊢
    rw [hmode]
    exact fun more => congrArg (Place.memory _) (BitVec.add_zero _)
  by_cases hindirect : mode < 0xE0
  · simp only [hshort, habsolute, hdecrement, hincrement, hindirect, if_true, if_false] at hmode ⊢
    rw [hmode]
    exact fun more => congrArg (Place.memory _) (BitVec.add_zero _)
  by_cases hbyte : mode < 0xF0
  · simp only [hshort, habsolute, hdecrement, hincrement, hindirect, hbyte, if_true, if_false] at hmode ⊢
    rw [hmode]
    exact fun byte more => rfl
  · simp only [hshort, habsolute, hdecrement, hincrement, hindirect, hbyte, if_false] at hmode ⊢
    rw [hmode]
    exact fun high low more => rfl

end AddressingMode

theorem GeneralForm.decode_location (mode : Byte) (p : Processor) (h : isMode mode = true)
    (hkind : Kind.ofMode mode = .memory) :
    ((decode mode).run p).Ensures fun calls r => ∀ more, r.1.operand.place =
      .memory (location p mode (codeBytes calls ++ more)).1 (location p mode (codeBytes calls ++ more)).2 := by
  apply ensures_decode
  apply (AddressingMode.resolve_location mode p h hkind).mono
  intro calls r hplace more code escaped pc _ _ _ rest
  rw [codeBytes_append, List.append_assoc]
  exact hplace _

theorem Operand.actions_eq {operand : Operand} {p : Processor} {mode : Byte} {bytes : List Byte}
    (hkind : operand.place.kind = Kind.ofMode mode) (hsize : operand.size = Size.field mode)
    (hplace : Kind.ofMode mode = .memory →
      operand.place = .memory (location p mode bytes).1 (location p mode bytes).2) (directions : List Direction) :
    operand.actions directions = directions.flatMap (operandActions p mode bytes) := by
  have hsingle : operand.place.actions operand.size = operandActions p mode bytes := by
    funext direction
    unfold operandActions
    rw [hsize]
    cases hk : Kind.ofMode mode with
    | memory =>
      rw [hplace hk]
      rfl
    | register | immediate =>
      rw [hk] at hkind
      cases hp : operand.place with
      | register r | immediate data =>
        rw [hp] at hkind
        cases direction <;> first | rfl | cases hkind
      | memory page offset =>
        rw [hp] at hkind
        cases hkind
  rw [Operand.actions, hsingle]

namespace Instruction

open Attempt Routine

theorem general_acts (mode : Byte) (p : Processor) (h : isMode mode = true) :
    ((Form.execute .general mode).run p).Ensures fun calls _ => Trace (generalActions p mode (codeBytes calls)) calls := by
  have hlocation : ((GeneralForm.decode mode).run p).Ensures fun calls r => Kind.ofMode mode = .memory → ∀ more,
      r.1.operand.place =
        .memory (location p mode (codeBytes calls ++ more)).1 (location p mode (codeBytes calls ++ more)).2 := by
    by_cases hkind : Kind.ofMode mode = .memory
    · exact (GeneralForm.decode_location mode p h hkind).mono fun _ _ hplace _ => hplace
    · exact ensures_of_forall _ fun _ _ hkind' => absurd hkind' hkind
  rw [ensures_general]
  apply ((GeneralForm.decode_ensures mode p h).and hlocation).mono
  rintro calls ⟨form, q⟩ ⟨⟨bytes, code, hdecoded⟩, hplace⟩
  have hexecute := Operation.execute_acts form.operand form.sub (code >>> 3).toNat (GeneralForm.index_lt code) q
  rw [← GeneralForm.execute_eq hdecoded.index, BitVec.ofNat_toNat, BitVec.setWidth_eq, ← hdecoded.index] at hexecute
  apply hexecute.mono
  intro more r htrace
  have hactions : generalActions p mode (codeBytes (calls ++ more)) =
      form.operand.actions (uses form.operand.place.kind form.operand.size form.operand.extended form.index form.sub) := by
    rw [generalActions, hdecoded.operation?_eq h, hdecoded.kind, hdecoded.size, hdecoded.index, hdecoded.sub, codeBytes_append,
      Operand.actions_eq hdecoded.kind hdecoded.size fun hkind => hplace hkind (codeBytes more)]
  rw [hactions]
  exact (Trace.of_traffic_eq_nil hdecoded.silent).append htrace

theorem loadShort_acts (byte : Byte) (p : Processor) : ((loadShort byte).run p).Ensures fun calls _ =>
    Trace [.access .load (Size.field byte) true 0 (wordOf p.base ((codeBytes calls).headD 0))] calls := by
  let operand (offset : Word) : Operand := ⟨.memory 0 offset, Size.field byte, false⟩
  have hload (offset : Word) : ((operand offset).load (registerField byte)).Acts ((operand offset).actions [.load]) :=
    Operand.load_bind fun _ => Routine.acts_quiet _
  rw [loadShort_eq]
  exact fun second => (hload (wordOf p.base second) _).mono fun _ _ htrace => .fetch _ second htrace

theorem storeShort_acts (byte : Byte) (p : Processor) : ((storeShort byte).run p).Ensures fun calls _ =>
    Trace [.access .store (Size.field byte) true 0 (wordOf p.base ((codeBytes calls).headD 0))] calls := by
  let operand (offset : Word) : Operand := ⟨.memory 0 offset, Size.field byte, false⟩
  have hstore (offset : Word) (value : Long) : ((operand offset).assign value).Acts ((operand offset).actions [.store]) :=
    Operand.store_bind fun _ => Routine.acts_quiet _
  rw [storeShort_eq]
  intro second
  let q : Processor := { p with pc := p.pc + 1 }
  exact (hstore (wordOf p.base second) (q.long (registerField byte)) q).mono fun _ _ htrace => .fetch _ second htrace

theorem moveFrame_acts {byte : Byte} (h : 0x80 ≤ byte ∧ byte < 0xA0) (p : Processor) :
    ((moveFrame byte).run p).Ensures fun calls _ =>
      Trace [.access (if byte < 0x90 then .load else .store) (if 0x88 ≤ byte ∧ byte < 0x98 then .word else .byte) false
        p.stackPage (p.reg framePointer + ((codeBytes calls).headD 0).signExtend 16)] calls := by
  obtain ⟨hdirection, hsize⟩ : (if byte < 0x90 then Direction.load else .store) =
        (if byte.getLsbD 4 then .store else .load) ∧
      (if 0x88 ≤ byte ∧ byte < 0x98 then Size.word else .byte) =
        if byte.getLsbD 4 = byte.getLsbD 3 then .byte else .word := by
    decide +revert
  unfold moveFrame
  rw [hdirection, hsize]
  cases byte.getLsbD 4 <;> cases byte.getLsbD 3
  · exact fun second data => .fetch _ second (.single ⟨_, ⟨data, rfl⟩, rfl⟩)
  · exact fun second high low => .fetch _ second (.single ⟨_, Action.touches_word _ _ _ _ high low, rfl⟩)
  · exact fun second => .fetch _ second (.single ⟨_, Action.touches_word _ _ _ _ _ _, rfl⟩)
  · exact fun second => .fetch _ second (.single ⟨_, ⟨_, rfl⟩, rfl⟩)

theorem softwareTrap_acts (p : Processor) : ((softwareTrap 0x08).run p).Ensures fun calls _ =>
    Trace ((softwareTrap? (0x08 :: codeBytes calls)).toList.map .softwareTrap) calls := by
  unfold softwareTrap
  simp only [Attempt.run_bind, Attempt.run_lift, Routine.run_fetch, fetch_bind, done_bind, ensures_fetch]
  intro second
  have hrange : second &&& 0xF0 = 0x10 ↔ 0x10 ≤ second ∧ second ≤ 0x1F := by decide +revert
  have htrap : softwareTrap? [0x08, second] = if second &&& 0xF0 = 0x10 then some (second.setWidth 4) else none := by
    simp only [softwareTrap?, hrange, true_and]
  by_cases h : second &&& 0xF0 = 0x10
  · simp only [h, if_true] at htrap ⊢
    change Trace ((softwareTrap? [0x08, second]).toList.map .softwareTrap) _
    rw [htrap]
    exact .fetch _ second (.single ⟨[], rfl, rfl⟩)
  · simp only [h, if_false] at htrap ⊢
    change Trace ((softwareTrap? [0x08, second]).toList.map .softwareTrap) _
    rw [htrap]
    exact .fetch _ second .nil

theorem form_acts (first : Byte) (p : Processor) :
    (((Form.ofByte first).execute first).run p).Ensures fun calls _ =>
      Trace (actions p (first :: codeBytes calls)) calls := by
  cases hmode : isMode first with
  | true =>
    simp only [actions, ofByte_of_isMode hmode, hmode, if_true]
    exact general_acts first p hmode
  | false =>
    simp only [actions, hmode, Bool.false_eq_true, if_false]
    by_cases hshort : 0x60 ≤ first ∧ first < 0x80
    · simp only [hshort, and_self, if_true]
      by_cases hload : first < 0x70
      · have hform : Form.ofByte first = .loadShort := by decide +revert
        simp only [hform, hload, if_true]
        exact (ensures_lift _ p _).mpr (loadShort_acts first p)
      · have hform : Form.ofByte first = .storeShort := by decide +revert
        simp only [hform, hload, if_false]
        exact (ensures_lift _ p _).mpr (storeShort_acts first p)
    by_cases hframe : 0x80 ≤ first ∧ first < 0xA0
    · have hform : Form.ofByte first = .moveFrame := by decide +revert
      simp only [hshort, hframe, hform, and_self, if_true, if_false]
      exact (ensures_lift _ p _).mpr (moveFrame_acts hframe p)
    by_cases htrap : first = 0x08
    · subst htrap
      exact softwareTrap_acts p
    have hmove : first < 0x60 ∨ 0x9F < first := by bv_omega
    simp only [hshort, hframe, htrap, if_false]
    exact form_stacks p hmode hmove htrap

end Instruction

namespace Grammar

variable (p : Processor)

theorem uses_immediate (size : Size) (escaped : Bool) (code : Byte) :
    (uses .immediate size escaped (code >>> 3) (registerField code)).filter (· = .store) =
      if code >>> 3 = 0x01 ∨ code >>> 3 = 0x12 ∧ escaped = false ∨
        code >>> 3 = 0x13 ∧ controlRegisters.contains (size, registerField code) then [.store] else [] := by
  cases size <;> cases escaped <;> decide +revert

theorem filter_operandActions (mode : Byte) (bytes : List Byte) (directions : List Direction) :
    (directions.flatMap (operandActions p mode bytes)).filter (!·.isAccess) =
      if Kind.ofMode mode = .immediate then (directions.filter (· = .store)).map fun _ => .invalidInstruction else [] := by
  induction directions with
  | nil => exact (ite_self []).symm
  | cons direction directions ih =>
    rw [List.flatMap_cons, List.filter_append, ih]
    unfold operandActions
    cases Kind.ofMode mode <;> cases direction <;> rfl

theorem filter_generalActions (mode : Byte) (bytes : List Byte) :
    (generalActions p mode bytes).filter (!·.isAccess) =
      if storesToImmediate (mode :: bytes) then [.invalidInstruction] else [] := by
  have hstores : storesToImmediate (mode :: bytes) = (decide (Kind.ofMode mode = .immediate) &&
      (operation? (mode :: bytes)).any fun operation : Bool × Byte => operation.2 >>> 3 = 0x01 ∨
        operation.2 >>> 3 = 0x12 ∧ operation.1 = false ∨
          operation.2 >>> 3 = 0x13 ∧ controlRegisters.contains (Size.field mode, registerField operation.2)) := rfl
  rw [hstores]
  unfold generalActions
  cases operation? (mode :: bytes) with
  | none => rw [Option.any_none, Bool.and_false, if_neg Bool.false_ne_true, List.filter_nil]
  | some operation =>
    dsimp only
    rw [filter_operandActions]
    cases Kind.ofMode mode with
    | register | memory => rfl
    | immediate =>
      simp only [uses_immediate, Option.any_some, decide_true, Bool.true_and, decide_eq_true_eq, if_true]
      split <;> rfl

theorem filter_stackActions (pointer : Word) (directions : List Direction) :
    (stackActions pointer directions).filter (!·.isAccess) = [] := by
  induction directions generalizing pointer with
  | nil => rfl
  | cons direction directions ih => exact ih _

theorem storesToImmediate_of_not_isMode {first : Byte} (h : isMode first = false) (rest : List Byte) :
    storesToImmediate (first :: rest) = false := by
  rw [storesToImmediate, operation?, h]
  exact Bool.and_false _

theorem softwareTrap?_of_ne {first : Byte} (h : first ≠ 0x08) (rest : List Byte) : softwareTrap? (first :: rest) = none := by
  cases rest with
  | nil => rfl
  | cons second rest => exact if_neg fun htrap => h htrap.1

theorem filter_actions (code : List Byte) :
    (actions p code).filter (!·.isAccess) =
      (if storesToImmediate code then [.invalidInstruction] else []) ++
        (softwareTrap? code).toList.map .softwareTrap := by
  cases code with
  | nil => rfl
  | cons first rest =>
    cases hmode : isMode first with
    | true =>
      have hfirst : first ≠ 0x08 := by decide +revert
      rw [actions, hmode, if_pos rfl, filter_generalActions, softwareTrap?_of_ne hfirst]
      exact (List.append_nil _).symm
    | false =>
      rw [storesToImmediate_of_not_isMode hmode, if_neg Bool.false_ne_true, List.nil_append]
      by_cases hfirst : first = 0x08
      · subst hfirst
        have haccess (trap : Option (BitVec 4)) : (trap.toList.map Action.softwareTrap).filter (!·.isAccess) =
            trap.toList.map .softwareTrap := by cases trap <;> rfl
        exact haccess _
      rw [actions, hmode, if_neg Bool.false_ne_true, softwareTrap?_of_ne hfirst]
      split
      next => rfl
      split
      next => rfl
      exact filter_stackActions _ _

end Grammar

namespace Instruction

def trapped : Except Trap Unit → List Trap
  | .ok _ => []
  | .error trap => [trap]

theorem step_acts (p : Processor) : (step.run p).Ensures fun calls r =>
    Trace (actions p (codeBytes calls) ++ (trapped r.1).map .errorTrap) calls := by
  rw [ensures_step]
  intro first
  apply (form_acts first { p with pc := p.pc + 1 }).mono
  intro calls r htrace
  have hannouncement : Trace ((trapped r.1).map .errorTrap) (announcement r) := by
    obtain ⟨result, q⟩ := r
    cases result with
    | ok value => exact .nil
    | error trap => exact .single ⟨[], rfl, rfl⟩
  rw [codeBytes_announced]
  exact .fetch _ first (htrace.append hannouncement)

theorem step_notices {σ : Type} [Host σ] (p : Processor) (host : σ) :
    let calls := (step.run p).transcript host
    let code := codeBytes calls
    let result := ((step.run p).run host).1
    Trace (actions p code ++ (trapped result.1).map .errorTrap) calls ∧
      (notices calls).count (.fault .addressError) = (actions p code).countP Action.isMisaligned ∧
      (notices calls).filter (· ≠ .fault .addressError) =
        (if storesToImmediate code then [.fault .invalidInstruction] else []) ++
          (softwareTrap? code).toList.map .softwareTrap ++ (trapped result.1).map .errorTrap ∧
      ∀ muted : Notice → Bool, let replay := Replay.mk (answers calls)
        (((step.run p).without muted).run replay).1 = result ∧
          ((step.run p).without muted).transcript replay = calls.filter fun call => !call.notice?.any muted := by
  intro calls code result
  have htrace : Trace (actions p code ++ (trapped result.1).map .errorTrap) calls := (step_acts p).transcript host
  refine ⟨htrace, ?_, ?_, fun muted => without_replayed muted (step.run p) host⟩
  · have htraps : ((trapped result.1).map Action.errorTrap).countP Action.isMisaligned = 0 := by
      cases result.1 <;> rfl
    rw [htrace.notices_eq, count_addressError, List.countP_append, htraps, Nat.add_zero]
  · have htraps : (((trapped result.1).map Action.errorTrap).filter (!·.isAccess)).flatMap Action.notices =
        (trapped result.1).map .errorTrap := by
      cases result.1 <;> rfl
    rw [htrace.notices_eq, filter_notices, List.filter_append, List.flatMap_append, htraps, filter_actions,
      List.flatMap_append]
    congr 2
    · split <;> rfl
    · cases softwareTrap? code <;> rfl

theorem step_notices_odd_word :
    let p := Processor.new.setReg 1 0x2001
    let m := (Memory.filled 0).store 0 #[0xD9, 0x15]
    let calls := (step.run p).transcript m
    codeBytes calls = [0xD9, 0x15] ∧ (notices calls).count (.fault .addressError) = 2 ∧
      dataAddresses calls = [0x2000, 0x2001, 0x2000, 0x2001] ∧ writtenAddresses calls = [0x2000, 0x2001] := by
  intro p m calls
  obtain ⟨htrace, hcount, -, -⟩ := step_notices p m
  have hcode : codeBytes ((step.run p).transcript m) = [0xD9, 0x15] := by decide +kernel
  rw [hcode] at htrace hcount
  exact ⟨hcode, hcount.trans (by decide +kernel), htrace.dataAddresses_eq.trans (by decide +kernel),
    htrace.writtenAddresses_eq.trans (by decide +kernel)⟩

end Instruction

end Microcontroller
