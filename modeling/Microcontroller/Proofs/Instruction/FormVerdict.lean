import Microcontroller.Instruction.Step
import Microcontroller.Proofs.Instruction.OperandDecoding
import Microcontroller.Proofs.Operation.Division

namespace Microcontroller

open Grammar Dialogue

theorem Operand.divide_ensures (operand : Operand) (sub : Register) (p : Processor) :
    ((operand.divide sub).run p).Ensures fun calls r =>
      (operand.place.number? operand.size p (dataBytes calls)).map
        (fun divisor => verdict (if divisor = 0 then some .divideByZero else none)) = some r.1 := by
  rw [operand.run_divide, ensures_bind]
  apply (operand.read_ensures p).mono
  rintro calls ⟨divisor, q⟩ ⟨hvalue, rfl⟩
  rw [ensures_done, List.append_nil, hvalue, Option.map_some]
  by_cases hzero : divisor = 0
  · subst hzero
    rfl
  · have hnumber : divisor.toNat ≠ 0 := fun h => hzero (BitVec.eq_of_toNat_eq h)
    rw [if_neg hnumber, if_neg hzero]
    rfl

namespace GeneralForm

theorem index_lt (code : Byte) : (code >>> 3).toNat < 32 := by
  decide +revert

theorem slot_eq (code : Byte) :
    ((code >>> 3).setWidth 5).toFin = (⟨(code >>> 3).toNat, index_lt code⟩ : Fin 32) := by
  decide +revert

theorem execute_eq {form : GeneralForm} {code : Byte} (hindex : form.index = code >>> 3) :
    form.execute = (Operation.ofSlot ⟨(code >>> 3).toNat, index_lt code⟩).execute form.operand
      (BitVec.ofNat 8 (code >>> 3).toNat) form.sub := by
  rw [execute, slot, hindex, slot_eq, BitVec.ofNat_toNat, BitVec.setWidth_eq]

theorem execute_ensures (form : GeneralForm) (code : Byte) (p : Processor)
    (hindex : form.index = code >>> 3) (hsub : form.sub = registerField code) :
    (form.execute.run p).Ensures fun calls r =>
      operationVerdict? form.operand.place.kind form.operand.size form.operand.extended
        (form.operand.place.number? form.operand.size p (dataBytes calls)) code = some r.1 := by
  rw [execute_eq hindex, hsub]
  unfold operationVerdict?
  by_cases hd : code >>> 3 = 0x17
  · simp only [hd, if_true]
    exact form.operand.divide_ensures (registerField code) p
  · simp only [hd, if_false, Option.some.injEq]
    have hn : (code >>> 3).toNat ≠ 0x17 := fun h => hd (BitVec.eq_of_toNat_eq h)
    have h := Operation.execute_ends form.operand (registerField code) (code >>> 3).toNat (index_lt code) hn p
    rw [BitVec.ofNat_toNat, BitVec.setWidth_eq] at h ⊢
    exact h.mono fun _ _ h => h.symm

end GeneralForm

theorem Instruction.ofByte_of_isMode {first : Byte} (h : isMode first = true) : Form.ofByte first = .general := by
  decide +revert

theorem Instruction.ensures_general (mode : Byte) (p : Processor) (post : List Call → Except Trap Unit × Processor → Prop) :
    ((Form.execute .general mode).run p).Ensures post ↔
      ((GeneralForm.decode mode).run p).Ensures fun calls r =>
        (r.1.execute.run r.2).Ensures fun more r' => post (calls ++ more) r' :=
  Attempt.ensures_lift_bind (GeneralForm.decode mode) GeneralForm.execute p post

theorem general_ensures (mode : Byte) (p : Processor) (h : isMode mode = true) :
    ((Form.execute .general mode).run p).Ensures fun calls r =>
      generalVerdict? p (dataBytes calls) mode (codeBytes calls) = some r.1 := by
  rw [Instruction.ensures_general]
  apply (GeneralForm.decode_ensures mode p h).mono
  rintro calls ⟨form, q⟩ ⟨bytes, code, hdecoded⟩
  apply (form.execute_ensures code q hdecoded.index hdecoded.sub).mono
  intro more r hverdict
  have hdata : dataBytes calls = [] := by rw [← dataBytes_traffic, hdecoded.silent, dataBytes_nil]
  rw [codeBytes_append, dataBytes_append, hdata, List.nil_append, hdecoded.verdict?, hverdict]

namespace Instruction

open Attempt

theorem unassigned_ends (first : Byte) (h : first ∈ unassigned) :
    ((Form.ofByte first).execute first).Ends (verdict (some (.unimplemented first))) := by
  by_cases hr : first = 0x1C
  · subst hr
    exact ends_lift_bind _ fun _ => ends_lift_bind _ fun _ => ends_throw_bind _ _
  · have hf : Form.ofByte first = .unassigned := by decide +revert
    rw [hf]
    exact ends_throw _

theorem second_ensures (first : Byte) (p : Processor) (f : Byte → Attempt Unit) (h : first ∈ paired)
    (hf : ∀ second, (f second).Ends
      (verdict (if accepts first second then none else some (.invalidSecondary first second)))) :
    (((liftM Routine.fetch : Attempt Byte) >>= f).run p).Ensures fun calls r =>
      verdict? p (dataBytes calls) (first :: codeBytes calls) = some r.1 := by
  have hu : first ∉ unassigned := by
    clear hf
    decide +revert
  simp only [verdict?, hu, h, if_true, if_false]
  intro second
  apply (hf second _).mono
  intro more r hr
  exact congrArg some hr.symm

theorem countDown_ensures (gate : Status → Bool) (first : Byte) (p : Processor) (h : first ∈ paired)
    (ha : ∀ second, accepts first second = decide (second >>> 3 = 0x17)) :
    ((countDown gate first).run p).Ensures fun calls r =>
      verdict? p (dataBytes calls) (first :: codeBytes calls) = some r.1 := by
  apply second_ensures first p _ h
  intro second
  rw [ha]
  by_cases hs : second >>> 3 = 0x17
  · simp only [hs, decide_true, if_true]
    refine ends_lift_bind _ fun offset => ends_lift_bind _ fun q => ?_
    split
    · refine ends_lift_bind _ fun _ => ?_
      split
      · exact ends_pure ()
      · exact ends_lift _
    · exact ends_pure ()
  · simp only [hs, decide_false, Bool.false_eq_true, if_false]
    exact ends_throw_bind _ _

theorem softwareTrap_ensures (p : Processor) :
    ((softwareTrap 0x08).run p).Ensures fun calls r =>
      verdict? p (dataBytes calls) (0x08 :: codeBytes calls) = some r.1 := by
  apply second_ensures 0x08 p _ (by decide)
  intro second
  have ha : accepts 0x08 second = decide (second &&& 0xF0 = 0x10) := by decide +revert
  rw [ha]
  by_cases hs : second &&& 0xF0 = 0x10
  · simp only [hs, decide_true, if_true]
    exact ends_lift _
  · simp only [hs, decide_false, Bool.false_eq_true, if_false]
    exact ends_throw_bind _ _

theorem jumpIndirect_ensures (p : Processor) :
    ((jumpIndirect 0x11).run p).Ensures fun calls r =>
      verdict? p (dataBytes calls) (0x11 :: codeBytes calls) = some r.1 := by
  apply second_ensures 0x11 p _ (by decide)
  intro second
  by_cases hs : second = 0x19
  · subst hs
    exact ends_lift _
  · have ha : accepts 0x11 second =
      decide ((second >>> 3).toNat = 0x19 ∨ (second >>> 3).toNat = 0x1A ∨ (second >>> 3).toNat = 0x1B) := by
      decide +revert
    rw [ha]
    simp only [hs, if_false]
    split
    next h =>
      rw [if_pos (by simp [h])]
      exact ends_lift_bind _ fun _ => ends_lift_bind _ fun _ => ends_lift_bind _ fun _ =>
        ends_lift_bind _ fun _ => ends_lift _
    next h =>
      rw [if_pos (by simp [h])]
      exact ends_lift_bind _ fun _ => ends_lift _
    next h =>
      rw [if_pos (by simp [h])]
      exact ends_lift_bind _ fun _ => ends_lift_bind _ fun _ => ends_lift_bind _ fun _ => ends_lift _
    next h₁ h₂ h₃ =>
      have hn : ¬((second >>> 3).toNat = 0x19 ∨ (second >>> 3).toNat = 0x1A ∨ (second >>> 3).toNat = 0x1B) := by
        rintro (h | h | h)
        · exact h₁ h
        · exact h₂ h
        · exact h₃ h
      rw [decide_eq_false hn]
      exact ends_throw _

theorem paired_ensures (first : Byte) (p : Processor) (h : first ∈ paired) :
    (((Form.ofByte first).execute first).run p).Ensures fun calls r =>
      verdict? p (dataBytes calls) (first :: codeBytes calls) = some r.1 := by
  have hf := h
  simp only [paired, List.mem_cons, List.not_mem_nil, or_false] at h
  rcases h with rfl | rfl | rfl | rfl | rfl
  · exact countDown_ensures (fun _ => true) 0x01 p hf (by decide)
  · exact countDown_ensures (·.get .zero) 0x06 p hf (by decide)
  · exact countDown_ensures (!·.get .zero) 0x07 p hf (by decide)
  · exact softwareTrap_ensures p
  · exact jumpIndirect_ensures p

theorem pop_ensures (p : Processor) :
    (Routine.pop.run p).Ensures fun calls r =>
      codeBytes calls = [] ∧ r.2 = p.setReg Processor.stackPointer (p.reg Processor.stackPointer + 2) := by
  unfold Routine.pop
  simp only [Routine.run_bind, Routine.run_get, done_bind, Routine.run_checkAlignment]
  split
  · exact fun _ _ => ⟨rfl, rfl⟩
  · exact fun _ _ => ⟨rfl, rfl⟩

theorem returnAndDrop_ensures (p : Processor) :
    ((returnAndDrop 0x14).run p).Ensures fun calls r =>
      verdict? p (dataBytes calls) (0x14 :: codeBytes calls) = some r.1 := by
  have hu : (0x14 : Byte) ∉ unassigned := by decide
  have hp : (0x14 : Byte) ∉ paired := by decide
  simp only [verdict?, hu, hp, if_false, if_true]
  unfold returnAndDrop returnFromCall
  simp only [Attempt.run_bind, Attempt.run_lift, Routine.run_bind, Routine.run_fetchDisplacement,
    fetch_bind, done_bind, Dialogue.bind_assoc, ensures_fetch, ensures_bind]
  intro count
  apply (pop_ensures _).mono
  rintro calls ⟨target, q⟩ ⟨hcode, rfl⟩
  simp only [if_true, Attempt.run_bind, Attempt.run_lift, Attempt.run_get, Routine.run_jump,
    Routine.run_setReg, done_bind, ensures_done]
  have hpointer (p' : Processor) (value : Word) :
      Processor.reg { p'.setReg Processor.stackPointer value with pc := target } Processor.stackPointer = value := by
    exact (Processor.reg_setReg p' _ _ value).trans (if_pos rfl)
  rw [hpointer]
  split
  next h => exact congrArg (fun b : Bool => some (verdict (if b then some _ else none))) h
  next h => exact congrArg (fun b : Bool => some (verdict (if b then some _ else none))) (eq_false_of_ne_true h)

theorem accepted_ends (first : Byte) (hu : first ∉ unassigned) (hp : first ∉ paired) (hr : first ≠ 0x14)
    (hm : isMode first = false) : ((Form.ofByte first).execute first).Ends (.ok ()) := by
  cases hf : Form.ofByte first with
  | noOperation => exact ends_pure ()
  | jumpGroup =>
    have h : first = 0x10 := by decide +revert
    subst h
    exact ends_lift_bind _ fun _ => ends_lift _
  | general => exact absurd hm (by decide +revert)
  | softwareTrap => exact absurd hp (by decide +revert)
  | returnAndDrop => exact absurd hu (by decide +revert)
  | unassigned => exact absurd hu (by decide +revert)
  | loadMultiple | callPage | returnFromException | callRelative | storeMultiple | jumpPage | call
  | returnFromCall | sleep | branch | compareImmediate | moveByte | moveWord | loadShort | storeShort
  | moveFrame => exact ends_lift _

theorem form_ensures (first : Byte) (p : Processor) :
    (((Form.ofByte first).execute first).run p).Ensures fun calls r =>
      verdict? p (dataBytes calls) (first :: codeBytes calls) = some r.1 := by
  by_cases hu : first ∈ unassigned
  · apply (unassigned_ends first hu p).mono
    intro calls r h
    rw [verdict?, if_pos hu, h]
  by_cases hp : first ∈ paired
  · exact paired_ensures first p hp
  by_cases hr : first = 0x14
  · subst hr
    exact returnAndDrop_ensures p
  simp only [verdict?, hu, hp, hr, if_false]
  cases hm : isMode first with
  | true =>
    rw [ofByte_of_isMode hm]
    exact general_ensures first p hm
  | false =>
    apply (accepted_ends first hu hp hr hm p).mono
    intro calls r h
    rw [h]
    rfl

end Instruction

end Microcontroller
