import Microcontroller.Proofs.Instruction.Encoding
import Microcontroller.Proofs.Instruction.OperandActions
import Microcontroller.Proofs.Processor.StackDiscipline

namespace Microcontroller

open Conduct Dialogue Grammar
open Processor (stackPointer)

def stackNext (pointer : Word) : Direction → Word
  | .load => pointer + 2
  | .store => pointer - 2

def stackSlot (pointer : Word) : Direction → Word
  | .load => pointer
  | .store => pointer - 2

def stackActions : Word → List Direction → List Action
  | _, [] => []
  | pointer, direction :: directions =>
    .access direction .word true 0 (stackSlot pointer direction) ::
      stackActions (stackNext pointer direction) directions

theorem stackActions_append (pointer : Word) (directions more : List Direction) :
    stackActions pointer (directions ++ more) =
      stackActions pointer directions ++ stackActions (directions.foldl stackNext pointer) more := by
  induction directions generalizing pointer with
  | nil => rfl
  | cons direction directions ih => exact congrArg (_ :: ·) (ih _)

def Grammar.stackUses (first second : Byte) : List Direction :=
  let listed := (List.range 8).countP second.getLsbD
  if first = 0x02 then List.replicate listed .load
  else if first = 0x12 then List.replicate listed .store
  else if first = 0x11 then
    if second = 0x19 then [.load, .load]
    else if 0xC8 ≤ second ∧ second ≤ 0xCF then [.store, .store]
    else if 0xD8 ≤ second ∧ second ≤ 0xDF then [.store]
    else []
  else if first = 0x03 then [.store, .store]
  else if first = 0x0A then [.load, .load, .load]
  else if first = 0x0E ∨ first = 0x18 ∨ first = 0x1E then [.store]
  else if first = 0x14 ∨ first = 0x19 ∨ first = 0x1C then [.load]
  else []

namespace Conduct

def Poised : Conduct := fun p calls q => traffic calls = [] ∧ q.reg stackPointer = p.reg stackPointer

instance : Composable Poised where
  refl _ := ⟨rfl, rfl⟩
  trans h h' := ⟨(traffic_append _ _).trans (by rw [h.1, h'.1]; rfl), h'.2.trans h.2⟩

instance : Fetching Poised := ⟨fun _ _ => ⟨rfl, rfl⟩⟩

instance : Jumping Poised := ⟨fun _ _ _ => ⟨rfl, rfl⟩⟩

end Conduct

namespace Routine

variable {α β : Type}

instance (f : Status → Status) : (updateStatus f).Keeps Poised := ⟨fun _ => ⟨rfl, rfl⟩⟩

instance : holdInterrupts.Keeps Poised := ⟨fun _ => ⟨rfl, rfl⟩⟩

def Stacks (x : Routine α) (directions : List Direction) : Prop :=
  ∀ p, (x.run p).Ensures fun calls r => Trace (stackActions (p.reg stackPointer) directions) calls ∧
    r.2.reg stackPointer = directions.foldl stackNext (p.reg stackPointer)

theorem stacks_poised (x : Routine α) [hx : x.Keeps Poised] : x.Stacks [] :=
  fun p => (hx.ensures p).mono fun _ _ h => ⟨.of_traffic_eq_nil h.1, h.2⟩

theorem Stacks.bind {x : Routine α} {f : α → Routine β} {directions more : List Direction} (hx : x.Stacks directions)
    (hf : ∀ value, (f value).Stacks more) : (x >>= f).Stacks (directions ++ more) := by
  intro p
  rw [run_bind, ensures_bind]
  apply (hx p).mono
  rintro calls ⟨value, q⟩ ⟨htrace, hpointer⟩
  apply (hf value q).mono
  rintro calls' r ⟨htrace', hpointer'⟩
  rw [hpointer] at htrace' hpointer'
  rw [stackActions_append, List.foldl_append]
  exact ⟨htrace.append htrace', hpointer'⟩

theorem poised_bind {x : Routine α} [x.Keeps Poised] {f : α → Routine β} {directions : List Direction}
    (hf : ∀ value, (f value).Stacks directions) : (x >>= f).Stacks directions := (stacks_poised x).bind hf

theorem Stacks.forM {f : Register → Routine Unit} {direction : Direction} (h : ∀ r, (f r).Stacks [direction])
    (list : List Register) : (list.forM f).Stacks (List.replicate list.length direction) := by
  induction list with
  | nil => exact stacks_poised (pure ())
  | cons r list ih => exact (h r).bind fun _ => ih

theorem push_stacks (value : Word) : (push value).Stacks [.store] := by
  intro p
  -- The check looks at the pointer before it moves, which has the same parity.
  have hparity : (p.reg stackPointer).getLsbD 0 = (p.reg stackPointer - 2).getLsbD 0 :=
    (StackCall.getLsbD_pointer (p.reg stackPointer) 1).symm
  have hwrite : ((do setReg stackPointer (p.reg stackPointer - 2)
                     writeWord (address 0 (p.reg stackPointer - 2)) value).run p).Ensures
      fun calls r => (Action.access .store .word true 0 (p.reg stackPointer - 2)).Touches calls ∧
        r.2.reg stackPointer = p.reg stackPointer - 2 :=
    ⟨Action.touches_word _ _ _ _ _ _, Processor.reg_setReg _ _ _ _⟩
  exact ensures_checked hparity hwrite

theorem pop_stacks : pop.Stacks [.load] := by
  intro p
  have hread : ((do let value ← readWord (address 0 (p.reg stackPointer))
                    setReg stackPointer (p.reg stackPointer + 2)
                    return value : Routine Word).run p).Ensures
      fun calls r => (Action.access .load .word true 0 (p.reg stackPointer)).Touches calls ∧
        r.2.reg stackPointer = p.reg stackPointer + 2 :=
    fun high low => ⟨Action.touches_word _ _ _ _ high low, Processor.reg_setReg _ _ _ _⟩
  exact ensures_checked rfl hread

end Routine

namespace Attempt

variable {α β : Type}

def Stacks (x : Attempt α) (directions : List Direction) : Prop :=
  ∀ p, (x.run p).Ensures fun calls _ => Trace (stackActions (p.reg stackPointer) directions) calls

theorem stacks_quiet (x : Attempt α) [x.Keeps Quiet] : x.Stacks [] := fun p => acts_quiet x p

theorem stacks_lift {x : Routine α} {directions : List Direction} (hx : x.Stacks directions) :
    (liftM x : Attempt α).Stacks directions := fun p => (ensures_lift x p _).mpr ((hx p).mono fun _ _ h => h.1)

theorem stacks_lift_bind {x : Routine α} {f : α → Attempt β} {directions more : List Direction} (hx : x.Stacks directions)
    (hf : ∀ value, (f value).Stacks more) : ((liftM x : Attempt α) >>= f).Stacks (directions ++ more) := by
  intro p
  rw [ensures_lift_bind]
  apply (hx p).mono
  rintro calls ⟨value, q⟩ ⟨htrace, hpointer⟩
  apply (hf value q).mono
  intro calls' _ htrace'
  rw [hpointer] at htrace'
  rw [stackActions_append]
  exact htrace.append htrace'

theorem poised_lift_bind {x : Routine α} [x.Keeps Poised] {f : α → Attempt β} {directions : List Direction}
    (hf : ∀ value, (f value).Stacks directions) : ((liftM x : Attempt α) >>= f).Stacks directions :=
  stacks_lift_bind (Routine.stacks_poised x) hf

theorem ensures_fetch_bind {f : Byte → Attempt α} (uses : Byte → List Direction)
    (h : ∀ byte, (f byte).Stacks (uses byte)) (p : Processor) :
    (((liftM Routine.fetch : Attempt Byte) >>= f).run p).Ensures fun calls _ =>
      Trace (stackActions (p.reg stackPointer) (uses ((codeBytes calls).headD 0))) calls :=
  fun byte => (h byte { p with pc := p.pc + 1 }).mono fun _ _ htrace => .fetch _ byte htrace

end Attempt

namespace Instruction

open Attempt Routine

theorem call_stacks : call.Stacks [.store] :=
  poised_bind fun _ => poised_bind fun _ => (push_stacks _).bind fun _ => stacks_poised (jump _)

theorem callRelative_stacks (byte : Byte) : (callRelative byte).Stacks [.store] := by
  unfold callRelative
  dsimp only
  split <;> exact poised_bind fun _ => poised_bind fun _ => (push_stacks _).bind fun _ => stacks_poised (branch _)

theorem callPage_stacks : callPage.Stacks [.store, .store] :=
  poised_bind fun _ => poised_bind fun _ => poised_bind fun _ => (push_stacks _).bind fun _ =>
    (push_stacks _).bind fun _ => stacks_poised (jumpToPage _ _)

theorem returnFromCall_stacks : returnFromCall.Stacks [.load] := pop_stacks.bind fun _ => stacks_poised (jump _)

theorem returnToPage_stacks : returnToPage.Stacks [.load, .load] :=
  pop_stacks.bind fun _ => pop_stacks.bind fun _ => stacks_poised (jumpToPage _ _)

theorem returnFromException_stacks : returnFromException.Stacks [.load, .load, .load] :=
  pop_stacks.bind fun _ => poised_bind fun _ => returnToPage_stacks.bind fun _ => stacks_poised holdInterrupts

theorem returnAndDrop_stacks (byte : Byte) : (returnAndDrop byte).Stacks [.load] :=
  poised_lift_bind fun _ => stacks_lift_bind returnFromCall_stacks fun _ => stacks_quiet _

theorem length_registerList (list : Byte) : (registerList list).length = (List.range 8).countP list.getLsbD := by
  decide +revert

variable (p : Processor)

theorem loadMultiple_ensures : ((liftM loadMultiple : Attempt Unit).run p).Ensures fun calls _ =>
    Trace (stackActions (p.reg stackPointer) (stackUses 0x02 ((codeBytes calls).headD 0))) calls := by
  rw [loadMultiple, Attempt.lift_bind]
  refine ensures_fetch_bind (stackUses 0x02) (fun list => stacks_lift ?_) p
  change Routine.Stacks _ (List.replicate _ .load)
  rw [← length_registerList]
  refine Stacks.forM (fun r => pop_stacks.bind fun value => ?_) _
  split
  next => exact stacks_poised (pure ())
  next h => exact fun p => ⟨.nil, (Processor.reg_setReg p r stackPointer value).trans (if_neg (Ne.symm h))⟩

theorem storeMultiple_ensures : ((liftM storeMultiple : Attempt Unit).run p).Ensures fun calls _ =>
    Trace (stackActions (p.reg stackPointer) (stackUses 0x12 ((codeBytes calls).headD 0))) calls := by
  rw [storeMultiple, Attempt.lift_bind]
  refine ensures_fetch_bind (stackUses 0x12) (fun list => stacks_lift ?_) p
  change Routine.Stacks _ (List.replicate _ .store)
  rw [← length_registerList, ← List.length_reverse]
  exact Stacks.forM (fun r => poised_bind fun p => push_stacks _) _

theorem jumpIndirect_stacks : ((jumpIndirect 0x11).run p).Ensures fun calls _ =>
    Trace (stackActions (p.reg stackPointer) (stackUses 0x11 ((codeBytes calls).headD 0))) calls := by
  refine ensures_fetch_bind (stackUses 0x11) (fun second => ?_) p
  by_cases hs : second = 0x19
  · subst hs
    exact stacks_lift returnToPage_stacks
  have huses : stackUses 0x11 second = if (second >>> 3).toNat = 0x19 then [.store, .store]
      else if (second >>> 3).toNat = 0x1B then [.store] else [] := by
    decide +revert
  simp only [hs, if_false, huses]
  split
  next h =>
    rw [if_pos h]
    exact poised_lift_bind fun _ => stacks_lift_bind (push_stacks _) fun _ => stacks_lift_bind (push_stacks _) fun _ =>
      stacks_quiet _
  next h =>
    rw [h]
    exact poised_lift_bind fun _ => stacks_quiet _
  next h =>
    rw [h]
    exact poised_lift_bind fun _ => stacks_lift_bind (push_stacks _) fun _ => stacks_quiet _
  next hcall _ hnear =>
    rw [if_neg hcall, if_neg hnear]
    exact stacks_quiet _

set_option synthInstance.maxSize 512 in
instance (gate : Status → Bool) (byte : Byte) : (countDown gate byte).Keeps Quiet := by
  unfold countDown; infer_instance

theorem jumpGroup_quiet {byte : Byte} (h : byte ≠ 0x11) : (jumpGroup byte).Keeps Quiet := by
  unfold jumpGroup
  split
  next => infer_instance
  next => infer_instance
  next => infer_instance
  next => infer_instance
  next hbyte => exact absurd (BitVec.eq_of_toNat_eq hbyte) h
  next => infer_instance

theorem execute_quiet {form : Form} {byte : Byte} (h : form = .noOperation ∨ form = .jumpGroup ∧ byte ≠ 0x11 ∨
    form = .jumpPage ∨ form = .sleep ∨ form = .branch ∨ form = .compareImmediate ∨ form = .moveByte ∨
    form = .moveWord ∨ form = .unassigned) : (form.execute byte).Keeps Quiet := by
  obtain rfl | ⟨rfl, hbyte⟩ | rfl | rfl | rfl | rfl | rfl | rfl | rfl := h
  case inr.inl => exact jumpGroup_quiet hbyte
  all_goals
    dsimp only [Form.execute, jumpPage, branchConditionally, compareImmediate, moveByte, moveWord]
    infer_instance

theorem form_stacks {first : Byte} (hmode : isMode first = false) (hmove : first < 0x60 ∨ 0x9F < first)
    (htrap : first ≠ 0x08) :
    (((Form.ofByte first).execute first).run p).Ensures fun calls _ =>
      Trace (stackActions (p.reg stackPointer) (stackUses first ((codeBytes calls).headD 0))) calls := by
  by_cases hload : first = 0x02
  · subst hload
    exact loadMultiple_ensures p
  by_cases hstore : first = 0x12
  · subst hstore
    exact storeMultiple_ensures p
  by_cases hjump : first = 0x11
  · subst hjump
    exact jumpIndirect_stacks p
  by_cases hfar : first = 0x03
  · subst hfar
    exact stacks_lift callPage_stacks p
  by_cases hexception : first = 0x0A
  · subst hexception
    exact stacks_lift returnFromException_stacks p
  by_cases hcall : first = 0x0E ∨ first = 0x18 ∨ first = 0x1E
  · obtain rfl | rfl | rfl := hcall
    · exact stacks_lift (callRelative_stacks 0x0E) p
    · exact stacks_lift call_stacks p
    · exact stacks_lift (callRelative_stacks 0x1E) p
  by_cases hreturn : first = 0x14 ∨ first = 0x19 ∨ first = 0x1C
  · obtain rfl | rfl | rfl := hreturn
    · exact returnAndDrop_stacks 0x14 p
    · exact stacks_lift returnFromCall_stacks p
    · exact returnAndDrop_stacks 0x1C p
  have hform : Form.ofByte first = .noOperation ∨ Form.ofByte first = .jumpGroup ∧ first ≠ 0x11 ∨
      Form.ofByte first = .jumpPage ∨ Form.ofByte first = .sleep ∨ Form.ofByte first = .branch ∨
      Form.ofByte first = .compareImmediate ∨ Form.ofByte first = .moveByte ∨ Form.ofByte first = .moveWord ∨
      Form.ofByte first = .unassigned := by
    decide +revert
  simp only [stackUses, hload, hstore, hjump, hfar, hexception, hcall, hreturn, if_false]
  exact (execute_quiet hform).ensures p |>.mono fun _ _ => Trace.of_traffic_eq_nil

end Instruction

end Microcontroller
