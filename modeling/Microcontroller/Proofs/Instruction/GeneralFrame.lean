import Microcontroller.Proofs.Instruction.Selection
import Microcontroller.Proofs.Instruction.StepActions
import Microcontroller.Proofs.Instruction.TrapAftermath
import Microcontroller.Proofs.Operation.RegisterFrame

namespace Microcontroller

open Conduct Dialogue Grammar Processor

namespace Grammar

def storesOperand (index : Byte) (sub : Register) : Bool :=
  match index.toNat with
  | 0x00 => 6 ≤ sub
  | 0x02 => 3 ≤ sub ∧ sub ≤ 5
  | 0x01 | 0x03 | 0x09 | 0x0B | 0x12 | 0x13 => true
  | n => 0x18 ≤ n ∧ n ≤ 0x1D

theorem uses_memory {size : Size} {escaped : Bool} {code : Byte}
    (h : refusal? .memory size escaped (code >>> 3) (registerField code) = none) :
    (uses .memory size escaped (code >>> 3) (registerField code)).filter (· = .store) =
      if storesOperand (code >>> 3) (registerField code) then [.store] else [] := by
  cases size <;> cases escaped <;> decide +revert

theorem storedAddresses_operandActions (p : Processor) (mode : Byte) (bytes : List Byte) (directions : List Direction) :
    (directions.flatMap (operandActions p mode bytes)).flatMap Action.storedAddresses =
      if Kind.ofMode mode = .memory then (directions.filter (· = .store)).flatMap fun _ =>
        (Action.access .store (Size.field mode) true (location p mode bytes).1 (location p mode bytes).2).addresses
      else [] := by
  induction directions with
  | nil => exact (ite_self []).symm
  | cons direction directions ih =>
    rw [List.flatMap_cons, List.flatMap_append, ih]
    unfold operandActions
    cases Kind.ofMode mode <;> cases direction <;> simp [Action.storedAddresses]

end Grammar

namespace GeneralForm

structure Confined (p : Processor) (mode code : Byte) (q : Processor) : Prop where
  registers : ∀ r ∉ destinations (ownRegisters mode) (Size.field mode) (code >>> 3) (registerField code),
    q.reg r = (stepped p mode).reg r
  highBytes : Size.field mode = .byte → widens (code >>> 3) (registerField code) = false →
    ∀ r, highByte (q.reg r) = highByte ((stepped p mode).reg r)
  codePage : q.codePage = p.codePage
  pages : ∀ r, q.page r ≠ p.page r → r = registerField code ∧
    (code >>> 3 = 0x11 ∨ Kind.ofMode mode = .immediate ∧ (code >>> 3 = 0x09 ∨ code >>> 3 = 0x0B))

variable {mode code : Byte} {p q : Processor} {bytes : List Byte} {calls : List Call} {form : GeneralForm}

theorem Decoded.reg_eq (h : Decoded mode { p with pc := p.pc + 1 } calls form q bytes code) (r : Register) :
    q.reg r = (stepped p mode).reg r := by
  rw [h.processor, stepped_pc]
  rfl

theorem Decoded.keeps_registers (h : Decoded mode { p with pc := p.pc + 1 } calls form q bytes code)
    (hregisters : form.operand.place.registers = ownRegisters mode) {r : Register}
    (hr : r ∉ destinations (ownRegisters mode) (Size.field mode) (code >>> 3) (registerField code)) :
    (form.execute.run q).Ensures fun _ after => after.2.reg r = (stepped p mode).reg r := by
  have hkeeps : form.execute.Keeps (Guarding r id) := by
    rw [execute_eq h.index]
    apply Operation.execute_confined
    apply Guarding.allows
    rwa [hregisters, h.size, h.sub, BitVec.ofNat_toNat, BitVec.setWidth_eq]
  apply (hkeeps.ensures q).mono
  intro more after hreg
  exact Eq.trans hreg (h.reg_eq r)

theorem Decoded.keeps_highBytes (h : Decoded mode { p with pc := p.pc + 1 } calls form q bytes code)
    (hsize : Size.field mode = .byte) (hwidens : widens (code >>> 3) (registerField code) = false) (r : Register) :
    (form.execute.run q).Ensures fun _ after => highByte (after.2.reg r) = highByte ((stepped p mode).reg r) := by
  have hbyte : form.operand.size = .byte := h.size.trans hsize
  have hnumber (data : List Byte) (n : Nat) (hn : form.operand.place.number? form.operand.size q data = some n) :
      n < 0x100 := by
    rw [h.value, operandValue?, hsize] at hn
    split at hn <;> exact Nat.lt_succ_of_le (number?_le hn)
  have hindex : widens (BitVec.ofNat 8 (code >>> 3).toNat) form.sub = false := by
    rwa [BitVec.ofNat_toNat, BitVec.setWidth_eq, h.sub]
  rw [execute_eq h.index, ← h.reg_eq r]
  exact Operation.execute_guards hbyte hnumber form.sub r _ _ hindex

theorem Decoded.changes_page (h : Decoded mode { p with pc := p.pc + 1 } calls form q bytes code) (r : Register) :
    (form.execute.run q).Ensures fun _ after => after.2.page r ≠ p.page r → r = registerField code ∧
      (code >>> 3 = 0x11 ∨ Kind.ofMode mode = .immediate ∧ (code >>> 3 = 0x09 ∨ code >>> 3 = 0x0B)) := by
  have hq : q.page r = p.page r := by
    rw [h.processor, stepped_eq]
    rfl
  let slot := Operation.ofSlot ((code >>> 3).setWidth 5).toFin
  have hloads : slot.loadsControl form.operand.isImmediate = decide (code >>> 3 = 0x11 ∨
      Kind.ofMode mode = .immediate ∧ (code >>> 3 = 0x09 ∨ code >>> 3 = 0x0B)) := by
    rw [Operation.loadsControl_ofSlot, decide_eq_decide, Operand.isImmediate_iff, h.kind]
  have hexecute : form.execute = slot.execute form.operand form.index form.sub := by
    rw [execute, GeneralForm.slot, h.index]
  rw [hexecute]
  by_cases hnamed : r = form.sub ∧ slot.loadsControl form.operand.isImmediate = true
  · rw [h.sub, hloads, decide_eq_true_iff] at hnamed
    exact ensures_of_forall _ fun _ _ _ => hnamed
  · have hkeeps := Operation.execute_pages form.operand form.index form.sub fun hload hr => hnamed ⟨hr, hload⟩
    apply (hkeeps.ensures q).mono
    intro more after hkept hchanged
    exact absurd (Eq.trans hkept hq) hchanged

theorem Decoded.keeps_codePage (h : Decoded mode { p with pc := p.pc + 1 } calls form q bytes code) :
    (form.execute.run q).Ensures fun _ after => after.2.codePage = p.codePage := by
  have hq : q.codePage = p.codePage := by rw [h.processor, stepped_eq]
  apply ((inferInstance : form.execute.Keeps Straight).ensures q).mono
  rintro more after ⟨-, -, -, -, hpage⟩
  exact hpage.trans hq

theorem Decoded.confined (h : Decoded mode { p with pc := p.pc + 1 } calls form q bytes code)
    (hregisters : form.operand.place.registers = ownRegisters mode) :
    (form.execute.run q).Ensures fun _ after => Confined p mode code after.2 := by
  have hkept := Ensures.forall fun r => Ensures.forall fun hr => h.keeps_registers hregisters (r := r) hr
  have hhigh := Ensures.forall fun hsize => Ensures.forall fun hwidens => Ensures.forall (h.keeps_highBytes hsize hwidens)
  have hpages := Ensures.forall h.changes_page
  apply ((hkept.and hhigh).and (h.keeps_codePage.and hpages)).mono
  rintro more after ⟨⟨hregisters, hhighBytes⟩, hcodePage, hpages⟩
  exact ⟨hregisters, hhighBytes, hcodePage, hpages⟩

end GeneralForm

namespace Instruction

theorem general_form_confined {σ : Type} [Host σ] (p : Processor) (host : σ) {mode : Byte} {bytes : List Byte}
    (hcode : codeBytes ((step.run p).transcript host) = mode :: bytes) (hmode : isMode mode = true)
    (hok : ((step.run p).run host).1.1 = .ok ()) :
    ∃ escaped code, operation? (mode :: bytes) = some (escaped, code) ∧
      GeneralForm.Confined p mode code ((step.run p).run host).1.2 ∧
        writtenAddresses ((step.run p).transcript host) =
          if Kind.ofMode mode = .memory ∧ storesOperand (code >>> 3) (registerField code) then
            (Action.access .store (Size.field mode) true (location p mode bytes).1 (location p mode bytes).2).addresses
          else [] := by
  have hstep := @ensures_step_operation p (fun mode _ code after => GeneralForm.Confined p mode code after.2)
    fun hdecoded hregisters => hdecoded.confined hregisters
  obtain ⟨escaped, code, hoperation, hconfined⟩ := hstep.transcript host hcode hmode
  refine ⟨escaped, code, hoperation, hconfined, ?_⟩
  obtain ⟨hverdict, -⟩ := (step_ensures p).transcript host
  rw [hcode, hok] at hverdict
  have hrefusal := refusal?_of_verdict? hmode hverdict hoperation
  have htrace := (step_acts p).transcript host
  rw [hcode, hok, actions, if_pos hmode, generalActions, hoperation] at htrace
  rw [htrace.writtenAddresses_eq]
  simp only [trapped, List.map_nil, List.append_nil]
  rw [storedAddresses_operandActions]
  by_cases hkind : Kind.ofMode mode = .memory
  · rw [hkind] at hrefusal ⊢
    rw [uses_memory hrefusal]
    simp only [true_and, if_true]
    split <;> simp
  · simp only [hkind, false_and, if_false]

theorem general_form_confined_stores :
    let p := (Processor.new.setReg 1 0xABCD).setReg 2 0x1001
    let bytes := (Memory.filled 0).store 0 #[0xC2, 0x91]
    let words := (Memory.filled 0).store 0 #[0xDA, 0x91]
    let q := ((step.run p).run bytes).1.2
    let q' := ((step.run p).run words).1.2
    ((step.run p).run bytes).1.1 = .ok () ∧ ((step.run p).run words).1.1 = .ok () ∧
      (∀ r, q.reg r = (p.setReg 2 0x1002).reg r) ∧ (∀ r, q'.reg r = p.reg r) ∧ (∀ r, q'.page r = p.page r) ∧
      writtenAddresses ((step.run p).transcript bytes) = [0x1001] ∧
      writtenAddresses ((step.run p).transcript words) = [0x1000, 0x1001] := by
  intro p bytes words q q'
  have hcode : codeBytes ((step.run p).transcript bytes) = [0xC2, 0x91] := by decide +kernel
  have hcode' : codeBytes ((step.run p).transcript words) = [0xDA, 0x91] := by decide +kernel
  have hok : ((step.run p).run bytes).1.1 = .ok () := by decide +kernel
  have hok' : ((step.run p).run words).1.1 = .ok () := by decide +kernel
  have hstepped : stepped p 0xC2 = p.setReg 2 0x1002 ∧ stepped p 0xDA = p := by decide
  obtain ⟨escaped, code, hoperation, hconfined, hwritten⟩ := general_form_confined p bytes hcode (by decide) hok
  obtain ⟨-, rfl⟩ : false = escaped ∧ 0x91 = code := Prod.mk.inj (Option.some.inj hoperation)
  obtain ⟨escaped', code', hoperation', hconfined', hwritten'⟩ :=
    general_form_confined p words hcode' (by decide) hok'
  obtain ⟨-, rfl⟩ : false = escaped' ∧ 0x91 = code' := Prod.mk.inj (Option.some.inj hoperation')
  refine ⟨hok, hok', fun r => ?_, fun r => ?_, fun r => ?_, hwritten.trans (by decide +kernel),
    hwritten'.trans (by decide +kernel)⟩
  · rw [← hstepped.1]
    exact hconfined.registers r List.not_mem_nil
  · exact (hconfined'.registers r List.not_mem_nil).trans (congrArg (·.reg r) hstepped.2)
  · by_contra hchanged
    exact absurd (hconfined'.pages r hchanged).2 (by decide)

end Instruction

end Microcontroller
