import Microcontroller.Proofs.Instruction.ControlState
import Microcontroller.Proofs.Instruction.StepVerdict
import Microcontroller.Proofs.Operation.Destinations

namespace Microcontroller

open Dialogue Grammar

def Grammar.ownRegisters (mode : Byte) : List Register :=
  if Kind.ofMode mode = .register then [registerField mode] else []

namespace AddressingMode

def registers : AddressingMode → List Register
  | direct r => [r]
  | _ => []

theorem registers_ofByte (mode : Byte) (h : isMode mode = true) : (ofByte mode).registers = ownRegisters mode := by
  decide +revert

theorem resolve_registers (mode : AddressingMode) (size : Size) (p : Processor) :
    ((mode.resolve size).run p).Ensures fun _ r => r.1.registers = mode.registers := by
  cases mode with
  | immediate => cases size <;> first | exact fun _ => rfl | exact fun _ _ => rfl
  | byteDisplaced r | shortAbsolute => exact fun _ => rfl
  | wordDisplaced r | absolute => exact fun _ _ => rfl
  | _ => exact rfl

end AddressingMode

namespace GeneralForm

theorem decode_registers (mode : Byte) (p : Processor) (h : isMode mode = true) :
    ((decode mode).run p).Ensures fun _ r => r.1.operand.place.registers = ownRegisters mode := by
  apply ensures_decode
  apply ((AddressingMode.ofByte mode).resolve_registers (Size.field mode) p).mono
  intro calls r hplace more code escaped pc _ _ _
  rw [← AddressingMode.registers_ofByte mode h]
  exact hplace

end GeneralForm

namespace Grammar

theorem refusal?_of_operationVerdict? {kind : Kind} {size : Size} {escaped : Bool} {value : Option Nat} {code : Byte}
    (h : operationVerdict? kind size escaped value code = some (.ok ())) :
    refusal? kind size escaped (code >>> 3) (registerField code) = none := by
  unfold operationVerdict? at h
  by_cases hdivide : code >>> 3 = 0x17
  · rw [hdivide]
    rfl
  · rw [if_neg hdivide] at h
    cases hrefusal : refusal? kind size escaped (code >>> 3) (registerField code) with
    | none => rfl
    | some trap =>
      rw [hrefusal] at h
      cases h

theorem refusal?_of_verdict? {p : Processor} {data : List Byte} {mode code : Byte} {bytes : List Byte} {escaped : Bool}
    (hmode : isMode mode = true) (hverdict : verdict? p data (mode :: bytes) = some (.ok ()))
    (hoperation : operation? (mode :: bytes) = some (escaped, code)) :
    refusal? (Kind.ofMode mode) (Size.field mode) escaped (code >>> 3) (registerField code) = none := by
  have hmodes : ∀ mode, isMode mode = true → mode ∉ unassigned ∧ mode ∉ paired ∧ mode ≠ 0x14 := by decide
  have hfirst := hmodes mode hmode
  rw [verdict?, if_neg hfirst.1, if_neg hfirst.2.1, if_neg hfirst.2.2, if_pos hmode, generalVerdict?] at hverdict
  rw [operation?, if_pos hmode] at hoperation
  cases hrest : bytes.drop (extension mode) with
  | nil =>
    rw [hrest] at hoperation
    cases hoperation
  | cons first more =>
    rw [hrest] at hoperation hverdict
    dsimp only [escapableVerdict?] at hoperation hverdict
    split at hoperation
    next hzero =>
      rw [if_pos hzero] at hverdict
      cases more with
      | nil => cases hoperation
      | cons second more =>
        obtain ⟨rfl, rfl⟩ := Prod.mk.inj (Option.some.inj hoperation)
        exact refusal?_of_operationVerdict? hverdict
    next hzero =>
      rw [if_neg hzero] at hverdict
      obtain ⟨rfl, rfl⟩ := Prod.mk.inj (Option.some.inj hoperation)
      exact refusal?_of_operationVerdict? hverdict

end Grammar

namespace Instruction

theorem ensures_step_operation (p : Processor) {post : Byte → Bool → Byte → Except Trap Unit × Processor → Prop}
    (h : ∀ {mode code : Byte} {bytes : List Byte} {calls : List Call} {form : GeneralForm} {q : Processor},
      GeneralForm.Decoded mode { p with pc := p.pc + 1 } calls form q bytes code →
        form.operand.place.registers = ownRegisters mode →
          (form.execute.run q).Ensures fun _ r => post mode form.operand.extended code r) :
    (step.run p).Ensures fun calls r => ∀ {mode : Byte} {bytes : List Byte}, codeBytes calls = mode :: bytes →
      isMode mode = true → ∃ escaped code, operation? (mode :: bytes) = some (escaped, code) ∧ post mode escaped code r := by
  rw [ensures_step]
  intro first
  cases hfirst : isMode first with
  | true =>
    rw [ofByte_of_isMode hfirst, ensures_general]
    apply ((GeneralForm.decode_ensures first _ hfirst).and (GeneralForm.decode_registers first _ hfirst)).mono
    rintro calls ⟨form, q⟩ ⟨⟨bytes, code, hdecoded⟩, hregisters⟩
    apply (h hdecoded hregisters).mono
    intro more r hpost mode rest hcode _
    rw [codeBytes_announced] at hcode
    obtain ⟨rfl, rfl⟩ := List.cons.inj hcode
    exact ⟨form.operand.extended, code, hdecoded.operation?_eq hfirst more, hpost⟩
  | false =>
    apply ensures_of_forall
    intro calls r mode bytes hcode hmode
    rw [codeBytes_announced] at hcode
    obtain ⟨rfl, rfl⟩ := List.cons.inj hcode
    exact absurd hmode (Bool.eq_false_iff.mp hfirst)

end Instruction

end Microcontroller
