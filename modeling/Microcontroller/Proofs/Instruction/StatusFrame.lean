import Microcontroller.Proofs.Instruction.Selection
import Microcontroller.Proofs.Instruction.ShortForms
import Microcontroller.Proofs.Instruction.TrapAftermath
import Microcontroller.Proofs.Operation.FlagUse

namespace Microcontroller

open Attempt Conduct Dialogue Grammar Processor

namespace Grammar

/-- The use of the flags by an instruction without a mode byte. The moves at the frame pointer have the width bit the other
way round. -/
def shortUse (first : Byte) : FlagUse :=
  if first = 0x0A then .loaded
  else if first < 0x40 then .kept
  else if first < 0x50 then .codes
  else .reported (.register (registerField first))
    (if first < 0x80 then Size.field first else if first.getLsbD 3 then .byte else .word)

def flagUse (code : List Byte) : FlagUse :=
  match code with
  | [] => .kept
  | first :: rest =>
    match operation? code with
    | some (_, operation) =>
      operationUse (Kind.ofMode first) (Size.field first) (registerField first)
        (number? (Size.field first) (rest.take (extension first))) (operation >>> 3) (registerField operation)
    | none => shortUse first

theorem shortUse_eq (first : Byte) (h : isMode first = false) : shortUse first =
    match Form.ofByte first with
    | .returnFromException => .loaded
    | .compareImmediate => .codes
    | .moveByte => .reported (.register (registerField first)) .byte
    | .moveWord => .reported (.register (registerField first)) .word
    | .loadShort | .storeShort => .reported (.register (registerField first)) (Size.field first)
    | .moveFrame => .reported (.register (registerField first)) (if first.getLsbD 3 then .byte else .word)
    | _ => .kept := by
  decide +revert

end Grammar

namespace Instruction

open Operand

variable (byte : Byte)

theorem moveByte_uses :
    (liftM (moveByte byte) : Attempt Unit).Uses (.reported (.register (registerField byte)) .byte) := by
  rw [moveByte_eq, lift_bind]
  exact Uses.prepared inferInstance fun data =>
    uses_of_reports (load_reports ⟨.immediate (data.setWidth 16), .byte, false⟩ _)

theorem moveWord_uses :
    (liftM (moveWord byte) : Attempt Unit).Uses (.reported (.register (registerField byte)) .word) := by
  rw [moveWord_eq, lift_bind]
  exact Uses.prepared inferInstance fun data => uses_of_reports (load_reports ⟨.immediate data, .word, false⟩ _)

theorem loadShort_uses :
    (liftM (loadShort byte) : Attempt Unit).Uses (.reported (.register (registerField byte)) (Size.field byte)) := by
  rw [loadShort_eq, lift_bind]
  exact Uses.prepared inferInstance fun offset =>
    uses_of_reports (load_reports ⟨.memory 0 offset, Size.field byte, false⟩ _)

theorem storeShort_uses :
    (liftM (storeShort byte) : Attempt Unit).Uses (.reported (.register (registerField byte)) (Size.field byte)) := by
  rw [storeShort_eq, lift_bind]
  exact Uses.prepared inferInstance fun offset =>
    uses_of_reports (assignRegister_reports ⟨.memory 0 offset, Size.field byte, false⟩ rfl _)

theorem cut_merged (word data : Word) :
    Size.byte.cut ((word &&& 0xFF00 ||| data).setWidth 32) = Size.byte.cut (data.setWidth 32) := by
  have hclear : (0xFF00 : Word).setWidth 8 = 0#8 := rfl
  have hlow : lowByte (word &&& 0xFF00 ||| data) = lowByte data := by
    rw [lowByte, BitVec.setWidth_or, BitVec.setWidth_and, hclear, BitVec.and_zero, BitVec.zero_or]
    rfl
  exact (lowByte_of_long _).trans (hlow.trans (lowByte_of_long data).symm)

theorem moveFrame_uses : (liftM (moveFrame byte) : Attempt Unit).Uses
    (.reported (.register (registerField byte)) (if byte.getLsbD 3 then .byte else .word)) := by
  unfold moveFrame
  rw [lift_bind]
  apply Uses.prepared inferInstance
  intro offset
  apply uses_of_reports
  intro p
  -- The loads of a byte and of a word come first, then the two stores.
  cases byte.getLsbD 4 <;> cases byte.getLsbD 3
  · intro data
    exact Reported.isResult_register _ (congrArg (Size.cut .word) ((long_setReg p _ _).trans (long_of_byte data))) rfl
  · intro high low
    refine Reported.isResult_register _ ?_ rfl
    rw [long_setReg]
    exact cut_merged _ _
  · exact ⟨p.long (registerField byte), rfl, rfl⟩
  · exact ⟨p.long (registerField byte), rfl, rfl⟩

theorem short_uses (h : isMode byte = false) : ((Form.ofByte byte).execute byte).Uses (shortUse byte) := by
  rw [shortUse_eq byte h]
  cases hform : Form.ofByte byte
  case general =>
    have hgeneral : ∀ byte, isMode byte = false → Form.ofByte byte ≠ .general := by decide
    exact absurd hform (hgeneral byte h)
  case returnFromException => exact uses_loaded _
  case compareImmediate =>
    exact uses_of_keeps nofun (execute_computes (Using .codes) byte nofun nofun nofun)
  case moveByte => exact moveByte_uses byte
  case moveWord => exact moveWord_uses byte
  case loadShort => exact loadShort_uses byte
  case storeShort => exact storeShort_uses byte
  case moveFrame => exact moveFrame_uses byte
  case sleep => exact uses_of_keeps nofun ⟨fun p => rfl⟩
  all_goals exact uses_of_keeps nofun (execute_steers (Using .kept) byte rfl)

end Instruction

namespace Grammar

theorem kind_of_former {kind : Kind} {size width : Size} {own r sub : Register} {number : Option Nat} {index : Byte}
    (h : operationUse kind size own number index sub = .reported (.former r) width) : kind = .register := by
  unfold operationUse at h
  repeat' split at h
  all_goals cases h <;> rfl

end Grammar

namespace GeneralForm

variable {mode code : Byte} {p q : Processor} {bytes : List Byte} {calls : List Call} {form : GeneralForm}

theorem Decoded.uses (h : Decoded mode p calls form q bytes code)
    (hregisters : form.operand.place.registers = ownRegisters mode) : form.execute.Uses
      (operationUse (Kind.ofMode mode) (Size.field mode) (registerField mode) (number? (Size.field mode) bytes)
        (code >>> 3) (registerField code)) := by
  have hown (r : Register) (hplace : form.operand.place = .register r) : r = registerField mode := by
    rw [hplace, Place.registers, ownRegisters] at hregisters
    split at hregisters
    · exact (List.cons.inj hregisters).1
    · cases hregisters
  have hnumber (data : Word) (hplace : form.operand.place = .immediate data) :
      number? (Size.field mode) bytes = some data.toNat := by
    have hkind : Kind.ofMode mode = .immediate := by rw [← h.kind, hplace]; rfl
    have hvalue := h.value []
    rw [hplace, operandValue?, hkind] at hvalue
    exact hvalue.symm
  have huses := Operation.execute_uses hown hnumber form.sub (code >>> 3).toNat (index_lt code)
  rw [h.kind, h.size, h.sub, BitVec.ofNat_toNat, BitVec.setWidth_eq] at huses
  rw [execute_eq h.index, h.sub, BitVec.ofNat_toNat, BitVec.setWidth_eq]
  exact huses

end GeneralForm

namespace Instruction

theorem general_uses (mode : Byte) (p : Processor) (h : isMode mode = true) :
    ((Form.execute .general mode).run p).Ensures fun calls r => r.1 = .ok () →
      (flagUse (mode :: codeBytes calls)).Holds p ((stores calls).map Prod.snd) r.2 := by
  rw [ensures_general]
  apply ((GeneralForm.decode_ensures mode p h).and (GeneralForm.decode_registers mode p h)).mono
  rintro calls ⟨form, q⟩ ⟨⟨bytes, code, hdecoded⟩, hregisters⟩
  apply (hdecoded.uses hregisters q).mono
  intro more r huses hok
  have hbytes : (codeBytes (calls ++ more)).take (extension mode) = bytes := by
    rw [codeBytes_append, hdecoded.codeBytes_eq, List.append_assoc, ← hdecoded.length_bytes, List.take_left]
  have hstores : stores (calls ++ more) = stores more := by
    rw [stores_append, (silent_of_traffic hdecoded.silent).2, List.nil_append]
  rw [hstores, flagUse, hdecoded.operation?_eq h]
  dsimp only
  rw [hbytes]
  have hq : q = { stepped p mode with pc := q.pc } := hdecoded.processor
  apply (huses hok).congr
  · rw [hq, stepped_eq]
  · rw [hq, stepped_eq]
    rfl
  · intro r size hformer
    rw [hq, stepped_eq_self p (.inr (kind_of_former hformer))]
    rfl

theorem form_uses (first : Byte) (p : Processor) :
    (((Form.ofByte first).execute first).run p).Ensures fun calls r => r.1 = .ok () →
      (flagUse (first :: codeBytes calls)).Holds p ((stores calls).map Prod.snd) r.2 := by
  cases hmode : isMode first with
  | true =>
    rw [ofByte_of_isMode hmode]
    exact general_uses first p hmode
  | false =>
    have huse (rest : List Byte) : flagUse (first :: rest) = shortUse first := by
      rw [flagUse, operation?, hmode]
      rfl
    simp only [huse]
    exact short_uses first hmode p

theorem step_uses (p : Processor) :
    (step.run p).Ensures fun calls r => r.1 = .ok () →
      (flagUse (codeBytes calls)).Holds p ((stores calls).map Prod.snd) r.2 := by
  rw [ensures_step]
  intro first
  apply (form_uses first { p with pc := p.pc + 1 }).mono
  rintro calls ⟨result, q⟩ huses hok
  obtain rfl : result = .ok () := hok
  rw [codeBytes_announced]
  have hstores (a : Address) : stores (.fetch a first :: (calls ++ announcement (.ok (), q))) = stores calls := by
    rw [announcement, List.append_nil]
    rfl
  rw [hstores]
  exact (huses rfl).congr rfl rfl fun _ _ _ => rfl

theorem status_frame {σ : Type} [Host σ] (p : Processor) (host : σ) (hstatus : p.status.bits &&& ~~~0x870F = 0)
    (hok : ((step.run p).run host).1.1 = .ok ()) :
    let calls := (step.run p).transcript host
    let q := ((step.run p).run host).1.2
    (flagUse (codeBytes calls)).Holds p ((stores calls).map Prod.snd) q ∧ q.status.bits &&& ~~~0x870F = 0 := by
  intro calls q
  refine ⟨(step_uses p).transcript host hok, ?_⟩
  rw [← isGenuine_control] at hstatus ⊢
  exact ((step_settles p).transcript host).genuine hstatus

theorem status_frame_extension_and_move :
    let p := { Processor.new.setReg 1 0x0080 with status := ⟨0x870F⟩ }
    let extension := (Memory.filled 0).store 0 #[0xA1, 0x11]
    let move := (Memory.filled 0).store 0 #[0xA1, 0x82]
    let extended := ((step.run p).run extension).1.2
    let moved := ((step.run p).run move).1.2
    p.status.bits &&& ~~~0x870F = 0 ∧ ((step.run p).run extension).1.1 = .ok () ∧
      ((step.run p).run move).1.1 = .ok () ∧ extended.reg 1 = 0xFF80 ∧ moved.reg 2 = 0x0080 ∧
      extended.status.bits &&& ~~~0x000E = 0x8701 ∧ extended.status.get .negative = false ∧
      extended.status.get .zero = false ∧ extended.status.get .overflow = false ∧
      moved.status.bits &&& ~~~0x000E = 0x8701 ∧ moved.status.get .negative = true ∧
      moved.status.get .zero = false ∧ moved.status.get .overflow = false := by
  intro p extension move extended moved
  have hstatus : p.status.bits &&& ~~~0x870F = 0 := by decide
  have hok : ((step.run p).run extension).1.1 = .ok () := by decide +kernel
  have hok' : ((step.run p).run move).1.1 = .ok () := by decide +kernel
  have huse : flagUse (codeBytes ((step.run p).transcript extension)) = .reported (.former 1) .word := by
    decide +kernel
  have huse' : flagUse (codeBytes ((step.run p).transcript move)) = .reported (.register 2) .byte := by
    decide +kernel
  have hreg : moved.reg 2 = 0x0080 := by decide +kernel
  have hframe := (status_frame p extension hstatus hok).1
  have hframe' := (status_frame p move hstatus hok').1
  rw [huse] at hframe
  rw [huse'] at hframe'
  obtain ⟨value, hvalue, hdescribes⟩ := hframe.reports _ _ rfl
  obtain rfl : 0x0080 = value := Option.some.inj hvalue
  obtain ⟨value', hvalue', hdescribes'⟩ := hframe'.reports _ _ rfl
  obtain rfl : (moved.reg 2).setWidth 32 = value' := Option.some.inj hvalue'
  rw [hreg] at hdescribes'
  exact ⟨hstatus, hok, hok', by decide +kernel, hreg, hframe.frame.trans (by decide), hdescribes.negative,
    hdescribes.zero, hdescribes.overflow, hframe'.frame.trans (by decide), hdescribes'.negative, hdescribes'.zero,
    hdescribes'.overflow⟩

end Instruction

end Microcontroller
