import Microcontroller.Proofs.Dialogue.Actions
import Microcontroller.Proofs.Instruction.Conduct
import Microcontroller.Proofs.Instruction.OperationEndings

namespace Microcontroller

open Conduct Dialogue Grammar

/-- How an operation uses its operand, in order. One that is refused leaves it alone, but quick additions and loads of
a control register are refused only afterwards. -/
def Grammar.uses (kind : Kind) (size : Size) (escaped : Bool) (index : Byte) (sub : Register) : List Direction :=
  if (refusal? kind size escaped index sub).isSome ∧ index ≠ 0x01 ∧ index ≠ 0x11 then []
  else
    match index.toNat with
    | 0x00 => if sub ≤ 5 then [.load] else [.store]
    | 0x01 | 0x03 => [.load, .store]
    | 0x02 => if sub = 3 then [.store] else if sub = 6 then [.load] else [.load, .store]
    | 0x09 | 0x0B => if kind = .immediate then [.load] else [.load, .store]
    | 0x12 | 0x13 => [.store]
    | n => if 0x18 ≤ n ∧ n ≤ 0x1D then [.load, .store] else [.load]

namespace Conduct

def Quiet : Conduct := fun _ calls _ => traffic calls = []

instance : Updating Quiet where
  refl _ := rfl
  trans h h' := (traffic_append _ _).trans (by rw [h, h']; rfl)
  update _ _ := rfl

instance : Fetching Quiet := ⟨fun _ _ => rfl⟩

instance : Jumping Quiet := ⟨fun _ _ _ => rfl⟩

end Conduct

namespace Routine

variable {α β : Type}

instance (R : Conduct) [Composable R] : (MonadStateOf.get : Routine Processor).Keeps R := ⟨Composable.refl⟩

def Acts (x : Routine α) (actions : List Action) : Prop := ∀ p, (x.run p).Ensures fun calls _ => Trace actions calls

theorem acts_quiet (x : Routine α) [hx : x.Keeps Quiet] : x.Acts [] :=
  fun p => (hx.ensures p).mono fun _ _ => Trace.of_traffic_eq_nil

theorem Acts.bind {x : Routine α} {f : α → Routine β} {actions more : List Action} (hx : x.Acts actions)
    (hf : ∀ value, (f value).Acts more) : (x >>= f).Acts (actions ++ more) := by
  intro p
  rw [run_bind, ensures_bind]
  apply (hx p).mono
  intro calls r h
  apply (hf r.1 r.2).mono
  intro calls' _ h'
  exact h.append h'

end Routine

namespace Attempt

variable {α β : Type}

def Acts (x : Attempt α) (actions : List Action) : Prop := ∀ p, (x.run p).Ensures fun calls _ => Trace actions calls

theorem acts_quiet (x : Attempt α) [hx : x.Keeps Quiet] : x.Acts [] :=
  fun p => (hx.ensures p).mono fun _ _ => Trace.of_traffic_eq_nil

theorem acts_throw (trap : Trap) : (throw trap : Attempt α).Acts [] := fun _ => .nil

theorem acts_lift {x : Routine α} {actions : List Action} (hx : x.Acts actions) : (liftM x : Attempt α).Acts actions :=
  fun p => (ensures_lift x p _).mpr (hx p)

theorem acts_lift_bind {x : Routine α} {f : α → Attempt β} {actions more : List Action} (hx : x.Acts actions)
    (hf : ∀ value, (f value).Acts more) : ((liftM x : Attempt α) >>= f).Acts (actions ++ more) := by
  intro p
  rw [ensures_lift_bind]
  apply (hx p).mono
  intro calls r h
  apply (hf r.1 r.2).mono
  intro calls' _ h'
  exact h.append h'

end Attempt

def Place.actions (place : Place) (size : Size) (direction : Direction) : List Action :=
  match place, direction with
  | .register _, _ => []
  | .memory page offset, direction => [.access direction size true page offset]
  | .immediate _, .load => []
  | .immediate _, .store => [.invalidInstruction]

theorem Routine.ensures_checked {α : Type} {direction : Direction} {page : Byte} {offset checked : Word} {p : Processor}
    {x : Routine α} {post : α × Processor → Prop} (hparity : checked.getLsbD 0 = offset.getLsbD 0)
    (h : (x.run p).Ensures fun calls r => (Action.access direction .word true page offset).Touches calls ∧ post r) :
    ((do checkAlignment checked; x).run p).Ensures fun calls r =>
      Trace [.access direction .word true page offset] calls ∧ post r := by
  rw [run_bind, run_checkAlignment, hparity]
  split
  next hodd =>
    apply h.mono
    rintro calls r ⟨htouches, hpost⟩
    refine ⟨.single ⟨calls, htouches, ?_⟩, hpost⟩
    rw [Action.notices, Action.isMisaligned, if_pos hodd]
    rfl
  next heven =>
    apply h.mono
    rintro calls r ⟨htouches, hpost⟩
    refine ⟨.single ⟨calls, htouches, ?_⟩, hpost⟩
    rw [Action.notices, Action.isMisaligned, if_neg heven]
    rfl

namespace Operand

open Routine
open Attempt (acts_throw acts_lift acts_lift_bind)

def actions (operand : Operand) (directions : List Direction) : List Action :=
  directions.flatMap (operand.place.actions operand.size)

theorem read_acts (operand : Operand) : operand.read.Acts (operand.place.actions operand.size .load) := by
  intro p
  obtain ⟨place, size, extended⟩ := operand
  match place, size with
  | .register r, size => exact .nil
  | .memory page offset, .byte => exact fun byte => .single ⟨_, ⟨byte, rfl⟩, rfl⟩
  | .memory page offset, .word =>
    have hread : ((readWord (address page offset) >>= fun word => pure (word.setWidth 32) : Routine Long).run p).Ensures
        fun calls _ => (Action.access .load .word true page offset).Touches calls ∧ True :=
      fun high low => ⟨Action.touches_word .load true page offset high low, trivial⟩
    exact (ensures_checked rfl hread).mono fun _ _ h => h.1
  | .immediate data, size => exact .nil

theorem write_acts (operand : Operand) (value : Long) :
    (operand.write value).Acts (operand.place.actions operand.size .store) := by
  intro p
  obtain ⟨place, size, extended⟩ := operand
  match place, size with
  | .register r, .byte => exact .nil
  | .register r, .word => exact .nil
  | .memory page offset, .byte => exact .single ⟨_, ⟨_, rfl⟩, rfl⟩
  | .memory page offset, .word =>
    have hwrite : ((writeWord (address page offset) (value.setWidth 16)).run p).Ensures
        fun calls _ => (Action.access .store .word true page offset).Touches calls ∧ True :=
      ⟨Action.touches_word .store true page offset _ _, trivial⟩
    exact (ensures_checked rfl hwrite).mono fun _ _ h => h.1
  | .immediate data, size => exact .single ⟨[], rfl, rfl⟩

section Uses

variable {α : Type} {operand : Operand} {directions : List Direction}

theorem load_bind {f : Long → Routine α} (h : ∀ value, (f value).Acts (operand.actions directions)) :
    (operand.read >>= f).Acts (operand.actions (.load :: directions)) := operand.read_acts.bind h

theorem store_bind {value : Long} {f : Unit → Routine α} (h : ∀ value, (f value).Acts (operand.actions directions)) :
    (operand.write value >>= f).Acts (operand.actions (.store :: directions)) := (operand.write_acts value).bind h

theorem store_acts (value : Long) : (operand.write value).Acts (operand.actions [.store]) := by
  rw [actions, List.flatMap_singleton]
  exact operand.write_acts value

theorem quiet_bind {β : Type} {x : Routine β} [x.Keeps Quiet] {f : β → Routine α}
    (h : ∀ value, (f value).Acts (operand.actions directions)) : (x >>= f).Acts (operand.actions directions) :=
  (acts_quiet x).bind h

theorem load_lift_bind {f : Long → Attempt α} (h : ∀ value, (f value).Acts (operand.actions directions)) :
    ((liftM operand.read : Attempt Long) >>= f).Acts (operand.actions (.load :: directions)) :=
  acts_lift_bind operand.read_acts h

theorem store_lift_bind {value : Long} {f : Unit → Attempt α} (h : ∀ value, (f value).Acts (operand.actions directions)) :
    ((liftM (operand.write value) : Attempt Unit) >>= f).Acts (operand.actions (.store :: directions)) :=
  acts_lift_bind (operand.write_acts value) h

theorem quiet_lift_bind {β : Type} {x : Routine β} [x.Keeps Quiet] {f : β → Attempt α}
    (h : ∀ value, (f value).Acts (operand.actions directions)) :
    ((liftM x : Attempt β) >>= f).Acts (operand.actions directions) := acts_lift_bind (acts_quiet x) h

end Uses

section Operations

variable (operand : Operand) (index : Byte) (sub : Register)

theorem addQuick_acts : (operand.addQuick index sub).Acts
    (operand.actions (uses operand.place.kind operand.size operand.extended 0x01 sub)) := by
  have huses : uses operand.place.kind operand.size operand.extended 0x01 sub = [.load, .store] := by simp [uses]
  rw [huses, addQuick]
  exact load_lift_bind fun _ => quiet_lift_bind fun _ => store_lift_bind fun _ => Attempt.acts_quiet _

theorem changeBit_acts {change : BitChange} (number : Nat) (h : change ≠ .test) :
    (operand.changeBit change number).Acts (operand.actions [.load, .store]) := by
  unfold changeBit
  simp only [h, if_false]
  exact load_bind fun _ => quiet_bind fun _ => store_acts _

theorem examineBit_acts (number : Nat) : (operand.changeBit .test number).Acts (operand.actions [.load]) := by
  unfold changeBit
  simp only [if_true]
  exact load_bind fun _ => acts_quiet _

theorem applyShift_acts (shift : Shift) : (operand.applyShift shift).Acts (operand.actions [.load, .store]) := by
  unfold applyShift
  exact load_bind fun _ => quiet_bind fun _ => store_bind fun _ => acts_quiet _

theorem unary_acts : (operand.unary index sub).Acts
    (operand.actions (uses operand.place.kind operand.size operand.extended 0x02 sub)) := by
  obtain ⟨place, size, extended⟩ := operand
  match place, size, sub with
  | .immediate _, _, _ => exact acts_throw _
  | .memory _ _, _, ⟨0, _⟩ | .memory _ _, _, ⟨1, _⟩ | .memory _ _, _, ⟨2, _⟩ | .memory _ _, _, ⟨7, _⟩ =>
    exact acts_throw _
  | .register _, .word, ⟨0, _⟩ | .register _, .word, ⟨1, _⟩ | .register _, .word, ⟨2, _⟩ | .register _, _, ⟨7, _⟩ =>
    exact acts_throw _
  | .register _, .byte, ⟨0, _⟩ | .register _, .byte, ⟨1, _⟩ | .register _, .byte, ⟨2, _⟩ => exact fun _ => .nil
  | .memory _ _, _, ⟨3, _⟩ | .register _, _, ⟨3, _⟩ => exact acts_lift (store_bind fun _ => acts_quiet _)
  | .memory _ _, _, ⟨4, _⟩ | .register _, _, ⟨4, _⟩ =>
    exact acts_lift (load_bind fun _ => quiet_bind fun _ => store_acts _)
  | .memory _ _, _, ⟨5, _⟩ | .register _, _, ⟨5, _⟩ =>
    exact acts_lift (load_bind fun _ => store_bind fun _ => acts_quiet _)
  | .memory _ _, _, ⟨6, _⟩ | .register _, _, ⟨6, _⟩ => exact acts_lift (load_bind fun _ => acts_quiet _)

theorem shift_acts : (operand.shift index sub).Acts
    (operand.actions (uses operand.place.kind operand.size operand.extended 0x03 sub)) := by
  obtain ⟨place, size, extended⟩ := operand
  match place, sub with
  | .immediate _, _ => exact acts_throw _
  | .memory _ _, ⟨7, _⟩ | .register _, ⟨7, _⟩ => exact acts_throw _
  | .memory _ _, ⟨0, _⟩ | .memory _ _, ⟨1, _⟩ | .memory _ _, ⟨2, _⟩ | .memory _ _, ⟨3, _⟩
  | .memory _ _, ⟨4, _⟩ | .memory _ _, ⟨5, _⟩ | .memory _ _, ⟨6, _⟩ => exact acts_lift (applyShift_acts _ _)
  | .register _, ⟨0, _⟩ | .register _, ⟨1, _⟩ | .register _, ⟨2, _⟩ | .register _, ⟨3, _⟩
  | .register _, ⟨4, _⟩ | .register _, ⟨5, _⟩ | .register _, ⟨6, _⟩ => exact acts_lift (applyShift_acts _ _)

theorem moveImmediate_acts : (operand.moveImmediate index sub).Acts
    (operand.actions (uses operand.place.kind operand.size operand.extended 0x00 sub)) := by
  obtain ⟨place, size, extended⟩ := operand
  match place, sub with
  | .register _, _ | .immediate _, _ => exact acts_throw _
  | .memory _ _, ⟨0, _⟩ | .memory _ _, ⟨1, _⟩ | .memory _ _, ⟨2, _⟩ | .memory _ _, ⟨3, _⟩ =>
    exact acts_throw _
  | .memory _ _, ⟨4, _⟩ | .memory _ _, ⟨5, _⟩ =>
    exact load_lift_bind fun _ => quiet_lift_bind fun _ => acts_lift (acts_quiet _)
  | .memory _ _, ⟨6, _⟩ | .memory _ _, ⟨7, _⟩ =>
    exact quiet_lift_bind fun _ => acts_lift (store_bind fun _ => acts_quiet _)

theorem load_acts : (operand.move 0x10 sub).Acts
    (operand.actions (uses operand.place.kind operand.size operand.extended 0x10 sub)) := by
  obtain ⟨place, size, extended⟩ := operand
  cases extended with
  | true => exact acts_throw _
  | false => exact acts_lift (load_bind fun _ => acts_quiet _)

theorem move_store_acts : (operand.move 0x12 sub).Acts
    (operand.actions (uses operand.place.kind operand.size operand.extended 0x12 sub)) := by
  obtain ⟨place, size, extended⟩ := operand
  match place, size, extended with
  | _, _, true => exact acts_throw _
  | .register _, .byte, false => exact acts_throw _
  | .register _, .word, false => exact fun _ => .nil
  | .memory _ _, .byte, false | .memory _ _, .word, false =>
    exact quiet_lift_bind fun _ => acts_lift (store_bind fun _ => acts_quiet _)
  | .immediate _, .byte, false | .immediate _, .word, false =>
    exact quiet_lift_bind fun _ => acts_lift (store_bind fun _ => acts_quiet _)

theorem combineControl_acts (combine : Long → Long → Long) :
    (operand.combineControl combine sub).Acts (operand.actions [.load]) := by
  unfold combineControl
  exact load_lift_bind fun _ => Attempt.acts_quiet _

theorem controlOrBit_acts (combine : Long → Long → Long) {change : BitChange} (hchange : change ≠ .test) {index : Byte}
    (hindex : index = 0x09 ∨ index = 0x0B) :
    (if operand.isImmediate then operand.combineControl combine sub
      else do liftM (operand.changeBit change ((← get).bitNumber sub)) : Attempt Unit).Acts
        (operand.actions (uses operand.place.kind operand.size operand.extended index sub)) := by
  obtain ⟨place, size, extended⟩ := operand
  match place with
  | .immediate data =>
    -- Reading immediate data does nothing to the host, so it makes no difference whether the operation is refused.
    have hload := combineControl_acts ⟨.immediate data, size, extended⟩ sub combine
    change (combineControl combine ⟨.immediate data, size, extended⟩ sub).Acts _
    obtain rfl | rfl := hindex <;> (unfold uses; split <;> exact hload)
  | .register _ | .memory _ _ =>
    obtain rfl | rfl := hindex <;> exact quiet_lift_bind fun _ => acts_lift (changeBit_acts _ _ hchange)

theorem loadControl_acts : (operand.loadControl sub).Acts
    (operand.actions (uses operand.place.kind operand.size operand.extended 0x11 sub)) := by
  have huses : uses operand.place.kind operand.size operand.extended 0x11 sub = [.load] := by simp [uses]
  rw [huses, loadControl]
  exact load_lift_bind fun _ => Attempt.acts_quiet _

theorem storeControl_acts : (operand.storeControl sub).Acts
    (operand.actions (uses operand.place.kind operand.size operand.extended 0x13 sub)) := by
  have huses : uses operand.place.kind operand.size operand.extended 0x13 sub =
      if (missingControl? operand.size sub).isSome then [] else [.store] := by simp [uses, refusal?]
  rw [huses, storeControl]
  obtain ⟨register, h, hm⟩ | ⟨h, hm⟩ := Attempt.control_cases operand.size sub
  · rw [hm, Attempt.readControl_of_some h]
    exact quiet_lift_bind fun _ => acts_lift (store_acts _)
  · rw [hm, Attempt.readControl_of_none h]
    exact acts_throw _

theorem testBit_acts : (operand.testBit 0x0F sub).Acts
    (operand.actions (uses operand.place.kind operand.size operand.extended 0x0F sub)) := by
  obtain ⟨place, size, extended⟩ := operand
  match place with
  | .immediate _ => exact acts_throw _
  | .register _ | .memory _ _ => exact quiet_lift_bind fun _ => acts_lift (examineBit_acts _ _)

theorem numberedBit_acts {n : Nat} {change : BitChange}
    (h : (n = 0x18 ∨ n = 0x19 ∨ n = 0x1A ∨ n = 0x1B ∨ n = 0x1C ∨ n = 0x1D) ∧ change ≠ .test ∨
      (n = 0x1E ∨ n = 0x1F) ∧ change = .test) :
    (operand.numberedBit change (BitVec.ofNat 8 n) sub).Acts
      (operand.actions (uses operand.place.kind operand.size operand.extended (BitVec.ofNat 8 n) sub)) := by
  obtain ⟨place, size, extended⟩ := operand
  obtain ⟨rfl | rfl | rfl | rfl | rfl | rfl, hchange⟩ | ⟨rfl | rfl, rfl⟩ := h
  all_goals
    match place with
    | .immediate _ => exact acts_throw _
    | .register _ | .memory _ _ => first | exact acts_lift (examineBit_acts _ _) | exact acts_lift (changeBit_acts _ _ hchange)

theorem read_only_acts {f : Long → Routine Unit} [∀ value, (f value).Keeps Quiet] :
    (liftM (operand.read >>= f) : Attempt Unit).Acts (operand.actions [.load]) :=
  acts_lift (load_bind fun _ => acts_quiet _)

set_option synthInstance.maxSize 512 in
theorem divide_acts : (operand.divide sub).Acts (operand.actions [.load]) := by
  unfold divide
  obtain ⟨place, size, extended⟩ := operand
  refine load_lift_bind fun _ => ?_
  cases size <;> (dsimp only; exact Attempt.acts_quiet _)

theorem multiply_acts : (operand.multiply sub).Acts (operand.actions [.load]) := by
  unfold multiply
  obtain ⟨place, size, extended⟩ := operand
  refine load_bind fun _ => ?_
  cases size <;> exact acts_quiet _

end Operations

end Operand

set_option synthInstance.maxSize 512 in
theorem Operation.execute_acts (operand : Operand) (sub : Register) :
    ∀ n (h : n < 32),
      ((Operation.ofSlot ⟨n, h⟩).execute operand (BitVec.ofNat 8 n) sub).Acts
        (operand.actions (uses operand.place.kind operand.size operand.extended (BitVec.ofNat 8 n) sub))
  | 0x00, _ => operand.moveImmediate_acts 0x00 sub
  | 0x01, _ => operand.addQuick_acts 0x01 sub
  | 0x02, _ => operand.unary_acts 0x02 sub
  | 0x03, _ => operand.shift_acts 0x03 sub
  | 0x04, _ | 0x05, _ | 0x06, _ | 0x07, _ | 0x08, _ => operand.read_only_acts
  | 0x09, _ => operand.controlOrBit_acts sub (· ||| ·) (BitChange.noConfusion : BitChange.set ≠ .test) (.inl rfl)
  | 0x0A, _ => operand.read_only_acts
  | 0x0B, _ => operand.controlOrBit_acts sub (· &&& ·) (BitChange.noConfusion : BitChange.clear ≠ .test) (.inr rfl)
  | 0x0C, _ => operand.read_only_acts
  | 0x0D, _ => Attempt.acts_throw _
  | 0x0E, _ => operand.read_only_acts
  | 0x0F, _ => operand.testBit_acts sub
  | 0x10, _ => operand.load_acts sub
  | 0x11, _ => operand.loadControl_acts sub
  | 0x12, _ => operand.move_store_acts sub
  | 0x13, _ => operand.storeControl_acts sub
  | 0x14, _ => operand.read_only_acts
  | 0x15, _ => Attempt.acts_lift (operand.multiply_acts sub)
  | 0x16, _ => operand.read_only_acts
  | 0x17, _ => operand.divide_acts sub
  | 0x18, _ | 0x19, _ | 0x1A, _ | 0x1B, _ | 0x1C, _ | 0x1D, _ | 0x1E, _ | 0x1F, _ =>
    operand.numberedBit_acts sub (by decide)
  | n + 32, h => absurd h (by omega)

end Microcontroller
