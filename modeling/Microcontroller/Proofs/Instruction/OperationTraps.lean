import Microcontroller.Proofs.Arithmetic.Comparison
import Microcontroller.Proofs.Dialogue.Accesses
import Microcontroller.Proofs.Instruction.CodeOrder
import Microcontroller.Proofs.Instruction.FormVerdict

namespace Microcontroller

open Conduct Dialogue Grammar

namespace Attempt

variable {α β : Type}

class Completes (x : Attempt α) : Prop where
  ensures : ∀ p, (x.run p).Ensures fun _ r => ∃ value, r.1 = .ok value

instance (value : α) : Completes (pure value) := ⟨fun _ => ⟨value, rfl⟩⟩

instance (x : Routine α) : Completes (liftM x) where
  ensures p := by
    rw [ensures_lift]
    exact ensures_of_forall _ fun _ r => ⟨r.1, rfl⟩

instance : Completes get := ⟨fun p => ⟨p, rfl⟩⟩

instance (x : Attempt α) (f : α → Attempt β) [hx : Completes x] [hf : ∀ value, Completes (f value)] :
    Completes (x >>= f) where
  ensures p := by
    rw [run_bind, ensures_bind]
    apply (hx.ensures p).mono
    rintro calls ⟨result, q⟩ ⟨value, rfl⟩
    exact (hf value).ensures q

instance (c : Prop) [Decidable c] (x y : Attempt α) [Completes x] [Completes y] : Completes (if c then x else y) := by
  split <;> assumption

theorem Completes.ensures_trap (x : Attempt α) [hx : Completes x] (p : Processor)
    (post : List Call → Except Trap α × Processor → Trap → Prop) :
    (x.run p).Ensures fun calls r => ∀ trap, r.1 = .error trap → post calls r trap := by
  apply (hx.ensures p).mono
  rintro calls r ⟨value, hvalue⟩ trap htrap
  rw [hvalue] at htrap
  cases htrap

variable (R : Conduct)

class Traps (x : Attempt α) : Prop where
  ensures : ∀ p, (x.run p).Ensures fun calls r => ∀ trap, r.1 = .error trap → R p calls r.2

instance (x : Attempt α) [Completes x] : Traps R x := ⟨fun p => Completes.ensures_trap x p _⟩

instance [Composable R] (trap : Trap) : Traps R (throw trap : Attempt α) := ⟨fun p _ _ => Composable.refl p⟩

instance [Composable R] (trap : Trap) (f : α → Attempt β) : Traps R (throw trap >>= f) :=
  ⟨fun p _ _ => Composable.refl p⟩

variable {R} in
theorem Traps.bind [Composable R] {x : Attempt α} {f : α → Attempt β} (hx : Keeps R x)
    (hf : ∀ value, Traps R (f value)) : Traps R (x >>= f) where
  ensures p := by
    rw [run_bind, ensures_bind]
    apply (hx.ensures p).mono
    rintro calls ⟨result, q⟩ h
    cases result with
    | error trap =>
      intro _ _
      rwa [List.append_nil]
    | ok value =>
      apply ((hf value).ensures q).mono
      intro more r h' trap htrap
      exact Composable.trans h (h' trap htrap)

instance [Composable R] (x : Attempt α) (f : α → Attempt β) [hx : Keeps R x] [hf : ∀ value, Traps R (f value)] :
    Traps R (x >>= f) := Traps.bind hx hf

instance (x : Attempt α) (f : α → Attempt β) [hx : Traps R x] [hf : ∀ value, Completes (f value)] :
    Traps R (x >>= f) where
  ensures p := by
    rw [run_bind, ensures_bind]
    apply (hx.ensures p).mono
    rintro calls ⟨result, q⟩ h
    cases result with
    | error trap =>
      intro _ _
      rw [List.append_nil]
      exact h trap rfl
    | ok value =>
      apply ((hf value).ensures q).mono
      rintro more r ⟨final, hfinal⟩ trap htrap
      rw [hfinal] at htrap
      cases htrap

instance (c : Prop) [Decidable c] (x y : Attempt α) [Traps R x] [Traps R y] : Traps R (if c then x else y) := by
  split <;> assumption

instance [Composable R] (index : Byte) (size : Size) (data : Long) : Traps R (writeControl index size data) := by
  unfold writeControl controlRegister
  cases ControlRegister.ofIndex? size index with
  | none => exact inferInstanceAs (Traps R (throw _))
  | some register => exact inferInstanceAs (Traps R (liftM (modify (register.write data) : Routine Unit)))

end Attempt

namespace Operation

theorem execute_traps {operation : Operation} (hadd : operation ≠ .addQuick) (hdivide : operation ≠ .divide)
    (operand : Operand) (index : Byte) (sub : Register) : (operation.execute operand index sub).Traps Looks := by
  obtain ⟨place, size, extended⟩ := operand
  cases operation
  case addQuick => exact absurd rfl hadd
  case divide => exact absurd rfl hdivide
  case moveImmediate =>
    dsimp only [execute, Operand.moveImmediate]
    split
    · split <;> infer_instance
    · infer_instance
  case unary =>
    dsimp only [execute, Operand.unary]
    split <;> infer_instance
  case shift =>
    dsimp only [execute, Operand.shift]
    split <;> infer_instance
  case move =>
    cases place <;> cases size <;> (dsimp only [execute, Operand.move]; infer_instance)
  all_goals
    dsimp only [execute, Operand.setBit, Operand.clearBit, Operand.combineControl, Operand.testBit, Operand.numberedBit,
      Operand.loadControl, Operand.storeControl]
    infer_instance

end Operation

theorem Size.truncate_truncate (size : Size) (value : Long) : size.truncate (size.truncate value) = size.truncate value := by
  rw [truncate, truncate, BitVec.and_assoc, BitVec.and_self]

theorem Processor.store_truncate (p : Processor) (r : Register) (size : Size) :
    p.store r (size.truncate ((p.reg r).setWidth 32)) size = p := by
  cases size with
  | byte =>
    have hlow : (Size.byte.truncate ((p.reg r).setWidth 32)).setWidth 8 = lowByte (p.reg r) :=
      (Size.cut_truncate .byte _).trans (lowByte_of_long _)
    rw [Processor.store, hlow, withLow, wordOf_bytes, setReg_reg]
  | word =>
    have hword : (Size.word.truncate ((p.reg r).setWidth 32)).setWidth 16 = p.reg r :=
      (Size.cut_truncate .word _).trans (word_of_long _)
    rw [Processor.store, hword, setReg_reg]

namespace Arithmetic

variable (value : Long) (size : Size)

theorem value_add_zero : (add value 0 false size).value = size.truncate value := by
  have hzero : size.truncate 0 = 0 := BitVec.zero_and
  have hsum : size.truncate value + size.truncate 0 + (0 : Long) = size.truncate value := by
    rw [hzero]
    bv_omega
  exact (congrArg size.truncate hsum).trans (size.truncate_truncate value)

theorem codes_add_zero :
    (add value 0 false size).codes =
      { negative := size.isNegative value, zero := size.isZero value, overflow := false, carry := false } := by
  have hzero : size.cut 0 = 0 := BitVec.setWidth_zero ..
  have hsum : size.cut value + 0 = size.cut value := BitVec.add_zero _
  have hsigned : (size.cut value).saddOverflow 0 = false := by
    have hleast := (size.cut value).le_toInt
    have hgreatest := (size.cut value).toInt_lt
    have hnone : (0 : BitVec size.bits).toInt = 0 := BitVec.toInt_zero
    rw [BitVec.saddOverflow, hnone, Int.add_zero, ← Bool.decide_or]
    exact decide_eq_false (by omega)
  have hunsigned : (size.cut value).uaddOverflow 0 = false := by
    have hlt := (size.cut value).isLt
    exact decide_eq_false (Nat.not_le.mpr hlt)
  rw [calculates_add.codes_eq, exactCodes_sum, hzero, hsum, hsigned, hunsigned, Size.isNegative_eq, Size.isZero_eq]
  simp only [← BitVec.toNat_inj]
  rfl

end Arithmetic

namespace Operand

theorem read_writes_back (operand : Operand) (p : Processor) :
    (operand.read.run p).Ensures fun calls r =>
      (operand.place.kind ≠ .memory → loads calls = []) ∧
        ∀ f : Status → Status, ((operand.write (operand.size.truncate r.1)).run (p.updateStatus f)).Ensures fun more r' =>
          r'.2 = p.updateStatus f ∧ loads more = [] ∧ stores more = loads calls := by
  obtain ⟨place, size, extended⟩ := operand
  match place, size with
  | .register r, size =>
    refine ⟨fun _ => rfl, fun f => ⟨?_, rfl, rfl⟩⟩
    rw [Size.truncate_truncate]
    exact (p.updateStatus f).store_truncate r size
  | .memory page offset, .byte =>
    intro byte
    have hbyte : (Size.byte.truncate (byte.setWidth 32)).setWidth 8 = byte := by
      refine (Size.cut_truncate .byte _).trans ?_
      simp [Size.cut, Size.bits]
    exact ⟨fun h => absurd rfl h, fun f => ⟨rfl, rfl, congrArg (fun b => [(address page offset, b)]) hbyte⟩⟩
  | .memory page offset, .word =>
    have hword (high low : Byte) :
        (Size.word.truncate ((wordOf high low).setWidth 32)).setWidth 16 = wordOf high low :=
      (Size.cut_truncate .word _).trans (word_of_long _)
    simp only [read, write, Routine.run_bind, Routine.run_checkAlignment]
    split
    all_goals
      intro high low
      refine ⟨fun h => absurd rfl h, fun f => ⟨rfl, rfl, ?_⟩⟩
      simp only [hword, highByte_wordOf, lowByte_wordOf]
      rfl
  | .immediate data, size => exact ⟨fun _ => rfl, fun f => ⟨rfl, rfl, rfl⟩⟩

theorem addQuick_traps (operand : Operand) (index : Byte) (sub : Register) (p : Processor) :
    ((operand.addQuick index sub).run p).Ensures fun calls r => ∀ trap, r.1 = .error trap →
      trap = .invalidOperand index sub ∧ ∃ value : Long, operand.place.number? operand.size p (dataBytes calls) = some value.toNat ∧
        r.2 = p.updateStatus (·.withCodes
          { negative := operand.size.isNegative value
            zero := operand.size.isZero value
            overflow := false
            carry := false }) ∧
          WritesBack calls ∧ (operand.place.kind ≠ .memory → stores calls = []) := by
  cases hquick : quickValue? sub with
  | some addend =>
    have hcompletes : (operand.addQuick index sub).Completes := by
      simp only [addQuick, hquick, Option.isNone_some, Bool.false_eq_true, if_false]
      infer_instance
    exact Attempt.Completes.ensures_trap (operand.addQuick index sub) p _
  | none =>
    simp only [addQuick, hquick, Option.isNone_none, Option.getD_none, if_true, Attempt.run_bind, Attempt.run_lift,
      Routine.run_conclude, Arithmetic.value_add_zero, Arithmetic.codes_add_zero, Dialogue.bind_assoc, done_bind,
      ensures_bind]
    have hlooks := (inferInstance : operand.read.Keeps Looks).ensures p
    apply (((operand.read_ensures p).and (operand.read_writes_back p)).and hlooks).mono
    rintro calls ⟨value, q⟩ ⟨⟨⟨hvalue, -⟩, hloads, hwrite⟩, rfl, hstores⟩
    apply (hwrite _).mono
    rintro more ⟨_, q'⟩ ⟨rfl, hmore, hback⟩ trap ⟨rfl⟩
    have hdata : dataBytes more = [] := by rw [dataBytes_eq_loads, hmore, List.map_nil]
    rw [List.append_nil]
    refine ⟨rfl, value, ?_, rfl, ⟨calls, more, rfl, hstores, hmore, hback⟩, fun hkind => ?_⟩
    · rw [dataBytes_append, hdata, List.append_nil]
      exact hvalue
    · rw [stores_append, hstores, hback, hloads hkind]
      rfl

theorem divide_traps (operand : Operand) (r : Register) (p : Processor) :
    ((operand.divide r).run p).Ensures fun calls result => ∀ trap, result.1 = .error trap →
      trap = .divideByZero ∧ stores calls = [] ∧
        result.2 = p.updateStatus (·.withCodes { negative := false, zero := true, overflow := false, carry := false }) := by
  rw [operand.run_divide, ensures_bind]
  have hlooks := (inferInstance : operand.read.Keeps Looks).ensures p
  apply hlooks.mono
  rintro calls ⟨divisor, q⟩ ⟨rfl, hstores⟩
  rw [ensures_done, List.append_nil]
  by_cases hzero : divisor = 0
  · rw [if_pos hzero]
    rintro trap ⟨rfl⟩
    exact ⟨rfl, hstores, rfl⟩
  · rw [if_neg hzero]
    exact nofun

structure Trapped (operand : Operand) (p : Processor) (calls : List Call) (trap : Trap) (q : Processor) : Prop where
  kept : trap ≠ .divideByZero → (∀ sub, trap ≠ .invalidOperand 1 sub) → q = p
  divided : trap = .divideByZero →
    q = p.updateStatus (·.withCodes { negative := false, zero := true, overflow := false, carry := false })
  added : ∀ sub, trap = .invalidOperand 1 sub →
    ∃ value : Long, operand.place.number? operand.size p (dataBytes calls) = some value.toNat ∧
      q = p.updateStatus (·.withCodes
        { negative := operand.size.isNegative value
          zero := operand.size.isZero value
          overflow := false
          carry := false }) ∧
        WritesBack calls
  silent : (∀ sub, trap ≠ .invalidOperand 1 sub) ∨ operand.place.kind ≠ .memory → stores calls = []

theorem Trapped.processor_eq {operand : Operand} {p q : Processor} {calls : List Call} {trap : Trap}
    (h : operand.Trapped p calls trap q) : q = { p with status := q.status } := by
  by_cases hdivide : trap = .divideByZero
  · rw [h.divided hdivide]
    rfl
  by_cases hadd : ∃ sub, trap = .invalidOperand 1 sub
  · obtain ⟨sub, htrap⟩ := hadd
    obtain ⟨value, -, hprocessor, -⟩ := h.added sub htrap
    rw [hprocessor]
    rfl
  · rw [h.kept hdivide (not_exists.mp hadd)]

end Operand

theorem Grammar.refusal?_eq_some {kind : Kind} {size : Size} {escaped : Bool} {index : Byte} {sub : Register} {trap : Trap}
    (h : refusal? kind size escaped index sub = some trap) :
    trap = .invalidOperand index sub ∨ trap = .unimplemented 0x0D ∨
      trap = .controlRegister (BitVec.ofNat 8 sub.val) size := by
  unfold refusal? missingControl? at h
  grind

theorem Grammar.verdict_eq_error {refusal : Option Trap} {trap : Trap} (h : verdict refusal = .error trap) :
    refusal = some trap := by
  cases refusal <;> cases h
  rfl

theorem Operation.execute_trapped (operand : Operand) (sub : Register) {n : Nat} (h : n < 32) (p : Processor) :
    (((ofSlot ⟨n, h⟩).execute operand (BitVec.ofNat 8 n) sub).run p).Ensures fun calls r =>
      ∀ trap, r.1 = .error trap → operand.Trapped p calls trap r.2 := by
  by_cases hadd : n = 0x01
  · subst hadd
    apply (operand.addQuick_traps 1 sub p).mono
    intro calls r h trap htrap
    obtain ⟨rfl, value, hvalue, hprocessor, hback, hsilent⟩ := h trap htrap
    refine ⟨fun _ hne => absurd rfl (hne sub), nofun, fun _ _ => ⟨value, hvalue, hprocessor, hback⟩, ?_⟩
    rintro (hne | hkind)
    · exact absurd rfl (hne sub)
    · exact hsilent hkind
  by_cases hdivide : n = 0x17
  · subst hdivide
    apply (operand.divide_traps sub p).mono
    intro calls r h trap htrap
    obtain ⟨rfl, hsilent, hprocessor⟩ := h trap htrap
    exact ⟨fun hne => absurd rfl hne, fun _ => hprocessor, nofun, fun _ => hsilent⟩
  have hoperation : ofSlot ⟨n, h⟩ ≠ .addQuick ∧ ofSlot ⟨n, h⟩ ≠ .divide := by
    have hslots : ∀ slot : Fin 32, slot.val ≠ 0x01 → slot.val ≠ 0x17 → ofSlot slot ≠ .addQuick ∧ ofSlot slot ≠ .divide := by
      decide
    exact hslots ⟨n, h⟩ hadd hdivide
  have hlooks := (execute_traps hoperation.1 hoperation.2 operand (BitVec.ofNat 8 n) sub).ensures p
  apply (hlooks.and (execute_ends operand sub n h hdivide p)).mono
  rintro calls r ⟨hlooks, hverdict⟩ trap htrap
  obtain ⟨hsame, hsilent⟩ := hlooks trap htrap
  have hrefused : refusal? operand.place.kind operand.size operand.extended (BitVec.ofNat 8 n) sub = some trap := by
    rw [htrap] at hverdict
    exact verdict_eq_error hverdict.symm
  have hindex : BitVec.ofNat 8 n ≠ 1 := by bv_omega
  have hother : trap ≠ .divideByZero ∧ ∀ sub', trap ≠ .invalidOperand 1 sub' := by
    obtain rfl | rfl | rfl := refusal?_eq_some hrefused
    · exact ⟨nofun, fun sub' heq => hindex (Trap.invalidOperand.inj heq).1⟩
    · exact ⟨nofun, nofun⟩
    · exact ⟨nofun, nofun⟩
  exact ⟨fun _ _ => hsame, fun heq => absurd heq hother.1, fun sub' heq => absurd heq (hother.2 sub'), fun _ => hsilent⟩

theorem GeneralForm.execute_trapped (form : GeneralForm) (code : Byte) (p : Processor)
    (hindex : form.index = code >>> 3) (hsub : form.sub = registerField code) :
    (form.execute.run p).Ensures fun calls r => ∀ trap, r.1 = .error trap → form.operand.Trapped p calls trap r.2 := by
  rw [execute_eq hindex, hsub]
  exact Operation.execute_trapped form.operand (registerField code) (index_lt code) p

end Microcontroller
