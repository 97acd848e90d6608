import Microcontroller.Proofs.Instruction.StepVerdict

namespace Microcontroller

open Conduct Dialogue Grammar Processor

theorem length_codeAddresses (calls : List Call) : (codeAddresses calls).length = (codeBytes calls).length := by
  induction calls with
  | nil => rfl
  | cons call calls ih =>
    cases call with
    | fetch a byte => exact congrArg (· + 1) ih
    | read | write | notify => exact ih

theorem Conduct.Straight.pc_eq {p q : Processor} {calls : List Call} (h : Straight p calls q) :
    q.pc = p.pc + BitVec.ofNat 16 (codeBytes calls).length := by
  obtain ⟨-, n, hn, hpc, -⟩ := h
  rw [hpc, ← length_codeAddresses, hn, length_codePath]

namespace Routine

variable {α β : Type}

def Fetches (x : Routine α) (n : Nat) : Prop := ∀ p, (x.run p).Ensures fun calls _ => (codeBytes calls).length = n

theorem fetches_settled (x : Routine α) [hx : x.Keeps Settled] : x.Fetches 0 := by
  intro p
  apply (hx.ensures p).mono
  rintro calls r ⟨-, haddresses⟩
  rw [← length_codeAddresses, haddresses, List.length_nil]

theorem fetches_fetch : fetch.Fetches 1 := fun _ _ => rfl

theorem fetches_fetchWord : fetchWord.Fetches 2 := fun _ _ _ => rfl

theorem fetches_fetchDisplacement : fetchDisplacement.Fetches 1 := fun _ _ => rfl

theorem fetches_fetchShortOffset : fetchShortOffset.Fetches 1 := fun _ _ => rfl

theorem Fetches.bind {x : Routine α} {f : α → Routine β} {m n : Nat} (hx : x.Fetches m)
    (hf : ∀ value, (f value).Fetches n) : (x >>= f).Fetches (m + n) := by
  intro p
  rw [run_bind, ensures_bind]
  apply (hx p).mono
  intro calls r h
  apply (hf r.1 r.2).mono
  intro more _ h'
  rw [codeBytes_append, List.length_append, h, h']

end Routine

namespace Attempt

variable {α β : Type}

def Fetches (x : Attempt α) (n : Nat) : Prop :=
  ∀ p, (x.run p).Ensures fun calls r => ∀ value, r.1 = .ok value → (codeBytes calls).length = n

theorem fetches_throw (trap : Trap) (n : Nat) : (throw trap : Attempt α).Fetches n := fun _ _ => nofun

theorem fetches_settled (x : Attempt α) [hx : x.Keeps Settled] : x.Fetches 0 := by
  intro p
  apply (hx.ensures p).mono
  rintro calls r ⟨-, haddresses⟩ _ _
  rw [← length_codeAddresses, haddresses, List.length_nil]

theorem fetches_lift {x : Routine α} {n : Nat} (hx : x.Fetches n) : (liftM x : Attempt α).Fetches n := by
  intro p
  rw [ensures_lift]
  apply (hx p).mono
  intro calls r h value _
  exact h

theorem fetches_lift_bind {x : Routine α} {f : α → Attempt β} {m n : Nat} (hx : x.Fetches m)
    (hf : ∀ value, (f value).Fetches n) : ((liftM x : Attempt α) >>= f).Fetches (m + n) := by
  intro p
  rw [ensures_lift_bind]
  apply (hx p).mono
  intro calls r h
  apply (hf r.1 r.2).mono
  intro more _ h' value hvalue
  rw [codeBytes_append, List.length_append, h, h' value hvalue]

theorem fetches_throw_bind (trap : Trap) (f : α → Attempt β) (n : Nat) : ((throw trap : Attempt α) >>= f).Fetches n :=
  fun _ _ => nofun

end Attempt

namespace Form

def operandBytes (form : Form) (first : Byte) : Nat :=
  match form with
  | noOperation | general | returnFromException | returnFromCall | sleep | unassigned => 0
  | loadMultiple | softwareTrap | storeMultiple | returnAndDrop | moveByte | loadShort | storeShort | moveFrame => 1
  | moveWord | call => 2
  | callPage | jumpPage => 3
  | jumpGroup => if first = 0x11 then 1 else 2
  | callRelative => if first = 0x0E then 1 else 2
  | branch => if first.getLsbD 4 then 2 else 1
  | compareImmediate =>
    match Size.field first with
    | .byte => 1
    | .word => 2

end Form

namespace Instruction

open Attempt (fetches_lift fetches_lift_bind fetches_throw fetches_throw_bind)
open Routine

instance : returnFromException.Keeps Settled := by unfold returnFromException; infer_instance

section Fetches

variable (byte : Byte)

theorem fetchImmediate_fetches (size : Size) :
    (fetchImmediate size).Fetches (match size with | .byte => 1 | .word => 2) := by
  cases size with
  | byte => exact fetches_fetch.bind fun _ => fetches_settled _
  | word => exact fetches_fetchWord

theorem branchConditionally_fetches : (branchConditionally byte).Fetches (if byte.getLsbD 4 then 2 else 1) := by
  unfold branchConditionally
  split
  · exact fetches_fetchWord.bind fun _ => fetches_settled _
  · exact fetches_fetchDisplacement.bind fun _ => fetches_settled _

theorem callRelative_fetches : (callRelative byte).Fetches (if byte = 0x0E then 1 else 2) := by
  unfold callRelative
  split
  · exact fetches_fetchDisplacement.bind fun _ => fetches_settled _
  · exact fetches_fetchWord.bind fun _ => fetches_settled _

theorem loadShort_fetches : (loadShort byte).Fetches 1 := by
  refine fetches_fetchShortOffset.bind (n := 0) fun offset => ?_
  cases Size.field byte <;> exact fetches_settled _

theorem storeShort_fetches : (storeShort byte).Fetches 1 := by
  refine fetches_fetchShortOffset.bind (n := 0) fun offset => ?_
  cases Size.field byte <;> exact fetches_settled _

theorem moveFrame_fetches : (moveFrame byte).Fetches 1 := by
  refine fetches_fetchDisplacement.bind (n := 0) fun offset => ?_
  cases byte.getLsbD 4 <;> cases byte.getLsbD 3 <;> exact fetches_settled _

theorem softwareTrap_fetches : (softwareTrap byte).Fetches 1 := by
  refine fetches_lift_bind (n := 0) fetches_fetch fun second => ?_
  split
  · exact Attempt.fetches_settled _
  · exact fetches_throw_bind _ _ _

theorem countDown_fetches (gate : Status → Bool) : (countDown gate byte).Fetches 2 := by
  refine fetches_lift_bind (n := 1) fetches_fetch fun second => ?_
  dsimp only
  split
  · exact fetches_lift_bind fetches_fetchDisplacement fun _ => Attempt.fetches_settled _
  · exact fetches_throw_bind _ _ _

theorem jumpIndirect_fetches : (jumpIndirect byte).Fetches 1 := by
  refine fetches_lift_bind (n := 0) fetches_fetch fun second => ?_
  dsimp only
  split
  · exact Attempt.fetches_settled _
  · split
    · exact Attempt.fetches_settled _
    · exact Attempt.fetches_settled _
    · exact Attempt.fetches_settled _
    · exact fetches_throw _ _

theorem jumpGroup_fetches : (jumpGroup byte).Fetches (if byte = 0x11 then 1 else 2) := by
  by_cases h : byte = 0x11
  · subst h
    exact jumpIndirect_fetches 0x11
  · rw [if_neg h]
    unfold jumpGroup
    split
    next => exact countDown_fetches byte _
    next => exact countDown_fetches byte _
    next => exact countDown_fetches byte _
    next => exact fetches_lift_bind fetches_fetchWord fun _ => Attempt.fetches_settled _
    next heq => exact absurd (BitVec.eq_of_toNat_eq heq) h
    next => exact fetches_throw _ _

set_option synthInstance.maxSize 512 in
theorem returnAndDrop_fetches : (returnAndDrop byte).Fetches 1 :=
  fetches_lift_bind fetches_fetchDisplacement fun _ => Attempt.fetches_settled _

end Fetches

theorem execute_fetches {form : Form} (h : form ≠ .general) (first : Byte) :
    (form.execute first).Fetches (form.operandBytes first) := by
  cases form
  case general => exact absurd rfl h
  case unassigned => exact fetches_throw _ _
  case noOperation => exact Attempt.fetches_settled (pure ())
  case jumpGroup => exact jumpGroup_fetches first
  case softwareTrap => exact softwareTrap_fetches first
  case returnAndDrop => exact returnAndDrop_fetches first
  all_goals apply fetches_lift
  case loadMultiple => exact fetches_fetch.bind fun _ => fetches_settled _
  case callPage => exact fetches_fetch.bind fun _ => fetches_fetchWord.bind fun _ => fetches_settled _
  case returnFromException => exact fetches_settled _
  case callRelative => exact callRelative_fetches first
  case storeMultiple => exact fetches_fetch.bind fun _ => fetches_settled _
  case jumpPage => exact fetches_fetch.bind fun _ => fetches_fetchWord.bind fun _ => fetches_settled _
  case call => exact fetches_fetchWord.bind fun _ => fetches_settled _
  case returnFromCall => exact fetches_settled _
  case sleep => exact fetches_settled _
  case branch => exact branchConditionally_fetches first
  case compareImmediate => exact (fetchImmediate_fetches _).bind fun _ => fetches_settled _
  case moveByte => exact fetches_fetch.bind fun _ => fetches_settled _
  case moveWord => exact fetches_fetchWord.bind fun _ => fetches_settled _
  case loadShort => exact loadShort_fetches first
  case storeShort => exact storeShort_fetches first
  case moveFrame => exact moveFrame_fetches first

end Instruction

namespace GeneralForm

open Attempt (fetches_lift fetches_lift_bind fetches_throw fetches_throw_bind)
open Routine

theorem moveImmediate_fetches (operand : Operand) (index : Byte) (sub : Register) :
    (operand.moveImmediate index sub).Fetches (1 + sub.val % 2) := by
  have hread := fetches_settled operand.read
  obtain ⟨place, size, extended⟩ := operand
  match place, sub with
  | .register _, _ | .immediate _, _ => exact fetches_throw_bind _ _ _
  | .memory _ _, ⟨0, _⟩ | .memory _ _, ⟨1, _⟩ | .memory _ _, ⟨2, _⟩ | .memory _ _, ⟨3, _⟩ => exact fetches_throw _ _
  | .memory _ _, ⟨4, _⟩ =>
    change Attempt.Fetches _ (1 + 4 % 2)
    refine fetches_lift_bind (n := 1) hread fun _ => fetches_lift_bind (n := 0) fetches_fetchDisplacement fun _ => ?_
    exact fetches_lift (fetches_settled _)
  | .memory _ _, ⟨5, _⟩ =>
    change Attempt.Fetches _ (1 + 5 % 2)
    refine fetches_lift_bind (n := 2) hread fun _ => fetches_lift_bind (n := 0) fetches_fetchWord fun _ => ?_
    exact fetches_lift (fetches_settled _)
  | .memory _ _, ⟨6, _⟩ =>
    change Attempt.Fetches _ (1 + 6 % 2)
    refine fetches_lift_bind (n := 0) fetches_fetchDisplacement fun _ => ?_
    exact fetches_lift (fetches_settled _)
  | .memory _ _, ⟨7, _⟩ =>
    change Attempt.Fetches _ (1 + 7 % 2)
    refine fetches_lift_bind (n := 0) fetches_fetchWord fun _ => ?_
    exact fetches_lift (fetches_settled _)

theorem execute_fetches {form : GeneralForm} {code : Byte} (hindex : form.index = code >>> 3)
    (hsub : form.sub = registerField code) : form.execute.Fetches (immediateBytes code) := by
  have hslot : form.slot = 0 ↔ code >>> 3 = 0 := by
    rw [slot, hindex]
    clear hindex hsub
    decide +revert
  unfold execute immediateBytes
  by_cases h : code >>> 3 = 0
  · have hcount : (if code.getLsbD 0 then 2 else 1) = 1 + (registerField code).val % 2 := by
      clear hindex hsub hslot h
      decide +revert
    rw [if_pos h, hslot.mpr h, hsub, hcount]
    exact moveImmediate_fetches _ _ _
  · have hoperation (slot : Fin 32) (hne : slot ≠ 0) : Operation.ofSlot slot ≠ .moveImmediate := by
      clear hslot
      decide +revert
    have hsettled := Operation.execute_keeps Settled form.operand form.index form.sub
      (hoperation form.slot (mt hslot.mp h))
    rw [if_neg h]
    exact Attempt.fetches_settled _

end GeneralForm

namespace Instruction

open Routine

theorem fixedLength?_eq (first : Byte) (hmode : isMode first = false) (hassigned : first ∉ unassigned) :
    fixedLength? first = some ((Form.ofByte first).operandBytes first + 1) := by
  decide +kernel +revert

theorem general_length (mode : Byte) (p : Processor) (hmode : isMode mode = true) :
    ((Form.execute .general mode).run p).Ensures fun calls r =>
      r.1 = .ok () → length? (mode :: codeBytes calls) = some ((codeBytes calls).length + 1) := by
  rw [ensures_general]
  apply (GeneralForm.decode_ensures mode p hmode).mono
  rintro calls ⟨form, q⟩ ⟨bytes, code, hdecoded⟩
  apply (GeneralForm.execute_fetches hdecoded.index hdecoded.sub q).mono
  intro more r hlength hok
  have hrest := hlength () hok
  rw [length?, if_pos hmode, codeBytes_append, hdecoded.codeBytes_eq, List.append_assoc, ← hdecoded.length_bytes,
    List.drop_left]
  simp only [List.length_append, hrest]
  cases hescaped : form.operand.extended with
  | true =>
    simp only [operationCode, List.cons_append, operationLength?, if_true, List.head?_cons, Option.map_some,
      List.length_cons, List.length_nil, Option.some.injEq]
    omega
  | false =>
    have hcode := hdecoded.code_ne_zero hescaped
    simp only [operationCode, List.cons_append, operationLength?, hcode, if_false, Option.map_some, List.length_cons,
      List.length_nil, Option.some.injEq]
    omega

theorem form_length (first : Byte) (p : Processor) :
    (((Form.ofByte first).execute first).run p).Ensures fun calls r =>
      r.1 = .ok () → length? (first :: codeBytes calls) = some ((codeBytes calls).length + 1) := by
  cases hmode : isMode first with
  | true =>
    rw [ofByte_of_isMode hmode]
    exact general_length first p hmode
  | false =>
    by_cases hassigned : first ∈ unassigned
    · apply (unassigned_ends first hassigned p).mono
      intro calls r h hok
      rw [h] at hok
      exact absurd hok nofun
    · have hfixed := fixedLength?_eq first hmode hassigned
      have hform : Form.ofByte first ≠ .general := by
        clear hassigned hfixed
        decide +revert
      apply (execute_fetches hform first p).mono
      intro calls r h hok
      rw [length?, hmode, if_neg Bool.false_ne_true, hfixed, h () hok]

end Instruction

end Microcontroller
