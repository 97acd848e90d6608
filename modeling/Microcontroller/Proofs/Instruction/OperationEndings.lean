import Microcontroller.Operation.Table
import Microcontroller.Proofs.Dialogue.Transcript
import Microcontroller.Proofs.Instruction.Grammar

namespace Microcontroller

open Grammar

namespace Attempt

variable {α β : Type}

def Ends (x : Attempt α) (result : Except Trap α) : Prop :=
  ∀ p, (x.run p).Ensures fun _ r => r.1 = result

theorem ends_pure (value : α) : (pure value : Attempt α).Ends (.ok value) := fun _ => rfl

theorem ends_throw (trap : Trap) : (throw trap : Attempt α).Ends (.error trap) := fun _ => rfl

theorem ends_lift (x : Routine Unit) : (liftM x : Attempt Unit).Ends (.ok ()) := by
  intro p
  rw [ensures_lift]
  exact Dialogue.ensures_of_forall _ fun _ _ => rfl

theorem ends_lift_bind (x : Routine α) {f : α → Attempt β} {result : Except Trap β}
    (h : ∀ value, (f value).Ends result) : ((liftM x : Attempt α) >>= f).Ends result := by
  intro p
  rw [ensures_lift_bind]
  exact Dialogue.ensures_of_forall _ fun _ r => h r.1 r.2

theorem ends_throw_bind (trap : Trap) (f : α → Attempt β) :
    ((throw trap : Attempt α) >>= f).Ends (.error trap) := fun _ => rfl

theorem control_cases (size : Size) (sub : Register) :
    (∃ register, ControlRegister.ofIndex? size (BitVec.ofNat 8 sub.val) = some register ∧
      missingControl? size sub = none) ∨
    (ControlRegister.ofIndex? size (BitVec.ofNat 8 sub.val) = none ∧
      missingControl? size sub = some (.controlRegister (BitVec.ofNat 8 sub.val) size)) := by
  have hs : (ControlRegister.ofIndex? size (BitVec.ofNat 8 sub.val)).isSome =
      decide ((size, sub) ∈ controlRegisters) := by
    cases size <;> decide +revert
  unfold missingControl?
  cases h : ControlRegister.ofIndex? size (BitVec.ofNat 8 sub.val) with
  | none =>
    rw [h] at hs
    exact .inr ⟨rfl, if_neg (of_decide_eq_false hs.symm)⟩
  | some register =>
    rw [h] at hs
    exact .inl ⟨register, rfl, if_pos (of_decide_eq_true hs.symm)⟩

theorem readControl_of_some {size : Size} {index : Byte} {register : ControlRegister}
    (h : ControlRegister.ofIndex? size index = some register) :
    readControl index size = liftM (do return register.read size (← get) : Routine Long) := by
  simp only [readControl, controlRegister, h]
  rfl

theorem readControl_of_none {size : Size} {index : Byte}
    (h : ControlRegister.ofIndex? size index = none) :
    readControl index size = throw (.controlRegister index size) := by
  simp only [readControl, controlRegister, h]
  rfl

theorem writeControl_of_some {size : Size} {index : Byte} {register : ControlRegister}
    (h : ControlRegister.ofIndex? size index = some register) (data : Long) :
    writeControl index size data = liftM (modify (register.write data) : Routine Unit) := by
  simp only [writeControl, controlRegister, h]
  rfl

theorem writeControl_of_none {size : Size} {index : Byte}
    (h : ControlRegister.ofIndex? size index = none) (data : Long) :
    writeControl index size data = throw (.controlRegister index size) := by
  simp only [writeControl, controlRegister, h]
  rfl

end Attempt

def Place.kind : Place → Kind
  | .register _ => .register
  | .memory _ _ => .memory
  | .immediate _ => .immediate

namespace Operand

open Attempt

theorem quickValue?_isNone (sub : Register) :
    (quickValue? sub).isNone = !decide (sub = 0 ∨ sub = 1 ∨ sub = 4 ∨ sub = 5) := by
  decide +revert

theorem addQuick_ends (operand : Operand) (index : Byte) (sub : Register) :
    (operand.addQuick index sub).Ends
      (verdict (if sub = 0 ∨ sub = 1 ∨ sub = 4 ∨ sub = 5 then none else some (.invalidOperand index sub))) := by
  unfold addQuick
  refine ends_lift_bind _ fun value => ends_lift_bind _ fun sum => ends_lift_bind _ fun _ => ?_
  rw [quickValue?_isNone]
  by_cases h : sub = 0 ∨ sub = 1 ∨ sub = 4 ∨ sub = 5
  · simp only [h, decide_true, Bool.not_true, Bool.false_eq_true, if_true, if_false]
    exact ends_pure ()
  · simp only [h, decide_false, Bool.not_false, if_true, if_false]
    exact ends_throw _

theorem unary_ends (operand : Operand) (index : Byte) (sub : Register) :
    (operand.unary index sub).Ends (verdict (
      if operand.place.kind = .immediate ∨ sub = 7 ∨
          sub ≤ 2 ∧ ¬(operand.place.kind = .register ∧ operand.size = .byte)
      then some (.invalidOperand index sub) else none)) := by
  obtain ⟨place, size, extended⟩ := operand
  match place, size, sub with
  | .immediate _, _, _ => exact ends_throw _
  | .memory _ _, _, ⟨0, _⟩ | .memory _ _, _, ⟨1, _⟩ | .memory _ _, _, ⟨2, _⟩ => exact ends_throw _
  | .register _, .word, ⟨0, _⟩ | .register _, .word, ⟨1, _⟩ | .register _, .word, ⟨2, _⟩ =>
    exact ends_throw _
  | .register _, .byte, ⟨0, _⟩ | .register _, .byte, ⟨1, _⟩ | .register _, .byte, ⟨2, _⟩ =>
    exact ends_lift _
  | .memory _ _, _, ⟨3, _⟩ | .memory _ _, _, ⟨4, _⟩ | .memory _ _, _, ⟨5, _⟩ | .memory _ _, _, ⟨6, _⟩ =>
    exact ends_lift _
  | .register _, _, ⟨3, _⟩ | .register _, _, ⟨4, _⟩ | .register _, _, ⟨5, _⟩ | .register _, _, ⟨6, _⟩ =>
    exact ends_lift _
  | .memory _ _, _, ⟨7, _⟩ | .register _, _, ⟨7, _⟩ => exact ends_throw _

theorem shift_ends (operand : Operand) (index : Byte) (sub : Register) :
    (operand.shift index sub).Ends (verdict (
      if operand.place.kind = .immediate ∨ sub = 7 then some (.invalidOperand index sub) else none)) := by
  obtain ⟨place, size, extended⟩ := operand
  match place, sub with
  | .immediate _, _ => exact ends_throw _
  | .memory _ _, ⟨7, _⟩ | .register _, ⟨7, _⟩ => exact ends_throw _
  | .memory _ _, ⟨0, _⟩ | .memory _ _, ⟨1, _⟩ | .memory _ _, ⟨2, _⟩ | .memory _ _, ⟨3, _⟩
  | .memory _ _, ⟨4, _⟩ | .memory _ _, ⟨5, _⟩ | .memory _ _, ⟨6, _⟩ => exact ends_lift _
  | .register _, ⟨0, _⟩ | .register _, ⟨1, _⟩ | .register _, ⟨2, _⟩ | .register _, ⟨3, _⟩
  | .register _, ⟨4, _⟩ | .register _, ⟨5, _⟩ | .register _, ⟨6, _⟩ => exact ends_lift _

theorem moveImmediate_ends (operand : Operand) (index : Byte) (sub : Register) :
    (operand.moveImmediate index sub).Ends (verdict (
      if operand.place.kind = .memory ∧ 4 ≤ sub then none else some (.invalidOperand index sub))) := by
  obtain ⟨place, size, extended⟩ := operand
  match place, sub with
  | .register _, _ | .immediate _, _ => exact ends_throw _
  | .memory _ _, ⟨0, _⟩ | .memory _ _, ⟨1, _⟩ | .memory _ _, ⟨2, _⟩ | .memory _ _, ⟨3, _⟩ =>
    exact ends_throw _
  | .memory _ _, ⟨4, _⟩ | .memory _ _, ⟨5, _⟩ =>
    exact ends_lift_bind _ fun _ => ends_lift_bind _ fun _ => ends_lift _
  | .memory _ _, ⟨6, _⟩ | .memory _ _, ⟨7, _⟩ => exact ends_lift_bind _ fun _ => ends_lift _

theorem load_ends (operand : Operand) (sub : Register) :
    (operand.move 0x10 sub).Ends (verdict (
      if operand.extended then some (.invalidOperand 0x10 sub) else none)) := by
  obtain ⟨place, size, extended⟩ := operand
  cases extended with
  | true => exact ends_throw _
  | false => exact ends_lift _

theorem store_ends (operand : Operand) (sub : Register) :
    (operand.move 0x12 sub).Ends (verdict (
      if operand.extended ∨ operand.place.kind = .register ∧ operand.size = .byte
      then some (.invalidOperand 0x12 sub) else none)) := by
  obtain ⟨place, size, extended⟩ := operand
  match place, size, extended with
  | _, _, true => exact ends_throw _
  | .register _, .byte, false => exact ends_throw _
  | .register _, .word, false => exact ends_lift _
  | .memory _ _, .byte, false | .memory _ _, .word, false => exact ends_lift_bind _ fun _ => ends_lift _
  | .immediate _, .byte, false | .immediate _, .word, false => exact ends_lift_bind _ fun _ => ends_lift _

theorem combineControl_ends (combine : Long → Long → Long) (operand : Operand) (sub : Register) :
    (operand.combineControl combine sub).Ends (verdict (missingControl? operand.size sub)) := by
  obtain ⟨register, h, hm⟩ | ⟨h, hm⟩ := control_cases operand.size sub
  · simp only [combineControl, hm, readControl_of_some h, writeControl_of_some h]
    refine ends_lift_bind _ fun data => ends_lift_bind _ fun value => ends_lift_bind _ fun _ => ?_
    split
    · exact ends_lift_bind _ fun _ => ends_lift _
    · exact ends_lift _
  · simp only [combineControl, hm, readControl_of_none h]
    exact ends_lift_bind _ fun data => ends_throw_bind _ _

theorem loadControl_ends (operand : Operand) (sub : Register) :
    (operand.loadControl sub).Ends (verdict (missingControl? operand.size sub)) := by
  obtain ⟨register, h, hm⟩ | ⟨h, hm⟩ := control_cases operand.size sub
  · simp only [loadControl, hm, writeControl_of_some h]
    exact ends_lift_bind _ fun data => ends_lift_bind _ fun _ => ends_lift _
  · simp only [loadControl, hm, writeControl_of_none h]
    exact ends_lift_bind _ fun data => ends_throw_bind _ _

theorem storeControl_ends (operand : Operand) (sub : Register) :
    (operand.storeControl sub).Ends (verdict (missingControl? operand.size sub)) := by
  obtain ⟨register, h, hm⟩ | ⟨h, hm⟩ := control_cases operand.size sub
  · rw [storeControl, hm, readControl_of_some h]
    exact ends_lift_bind _ fun data => ends_lift _
  · rw [storeControl, hm, readControl_of_none h]
    exact ends_throw_bind _ _

theorem controlOrBit_ends (combine : Long → Long → Long) (change : BitChange) (operand : Operand)
    (sub : Register) :
    (if operand.isImmediate then operand.combineControl combine sub
      else do liftM (operand.changeBit change ((← get).bitNumber sub)) : Attempt Unit).Ends
        (verdict (if operand.place.kind = .immediate then missingControl? operand.size sub else none)) := by
  obtain ⟨place, size, extended⟩ := operand
  match place with
  | .immediate data => exact combineControl_ends combine ⟨.immediate data, size, extended⟩ sub
  | .register _ | .memory _ _ => exact ends_lift_bind _ fun _ => ends_lift _

theorem testBit_ends (operand : Operand) (index : Byte) (sub : Register) :
    (operand.testBit index sub).Ends
      (verdict (if operand.place.kind = .immediate then some (.invalidOperand index sub) else none)) := by
  obtain ⟨place, size, extended⟩ := operand
  match place with
  | .immediate _ => exact ends_throw _
  | .register _ | .memory _ _ => exact ends_lift_bind _ fun _ => ends_lift _

theorem numberedBit_ends (change : BitChange) (operand : Operand) (index : Byte) (sub : Register) :
    (operand.numberedBit change index sub).Ends
      (verdict (if operand.place.kind = .immediate then some (.invalidOperand index sub) else none)) := by
  obtain ⟨place, size, extended⟩ := operand
  match place with
  | .immediate _ => exact ends_throw _
  | .register _ | .memory _ _ => exact ends_lift _

end Operand

theorem Operation.execute_ends (operand : Operand) (sub : Register) :
    ∀ n (h : n < 32), n ≠ 0x17 →
      ((Operation.ofSlot ⟨n, h⟩).execute operand (BitVec.ofNat 8 n) sub).Ends
        (verdict (refusal? operand.place.kind operand.size operand.extended (BitVec.ofNat 8 n) sub))
  | 0x00, _, _ => operand.moveImmediate_ends 0x00 sub
  | 0x01, _, _ => operand.addQuick_ends 0x01 sub
  | 0x02, _, _ => operand.unary_ends 0x02 sub
  | 0x03, _, _ => operand.shift_ends 0x03 sub
  | 0x04, _, _ | 0x05, _, _ | 0x06, _, _ | 0x07, _, _ | 0x08, _, _ => Attempt.ends_lift _
  | 0x09, _, _ => operand.controlOrBit_ends (· ||| ·) .set sub
  | 0x0A, _, _ => Attempt.ends_lift _
  | 0x0B, _, _ => operand.controlOrBit_ends (· &&& ·) .clear sub
  | 0x0C, _, _ => Attempt.ends_lift _
  | 0x0D, _, _ => Attempt.ends_throw _
  | 0x0E, _, _ => Attempt.ends_lift _
  | 0x0F, _, _ => operand.testBit_ends 0x0F sub
  | 0x10, _, _ => operand.load_ends sub
  | 0x11, _, _ => operand.loadControl_ends sub
  | 0x12, _, _ => operand.store_ends sub
  | 0x13, _, _ => operand.storeControl_ends sub
  | 0x14, _, _ | 0x15, _, _ | 0x16, _, _ => Attempt.ends_lift _
  | 0x17, _, hn => absurd rfl hn
  | 0x18, _, _ => operand.numberedBit_ends .set 0x18 sub
  | 0x19, _, _ => operand.numberedBit_ends .set 0x19 sub
  | 0x1A, _, _ => operand.numberedBit_ends .clear 0x1A sub
  | 0x1B, _, _ => operand.numberedBit_ends .clear 0x1B sub
  | 0x1C, _, _ => operand.numberedBit_ends .invert 0x1C sub
  | 0x1D, _, _ => operand.numberedBit_ends .invert 0x1D sub
  | 0x1E, _, _ => operand.numberedBit_ends .test 0x1E sub
  | 0x1F, _, _ => operand.numberedBit_ends .test 0x1F sub
  | n + 32, h, _ => absurd h (by omega)

end Microcontroller
