import Microcontroller.Proofs.Instruction.Calls
import Microcontroller.Proofs.Processor.StackDiscipline

namespace Microcontroller

open Dialogue Memory Processor Routine
open Instruction (step)
open StackCall (pointer pointer_zero pointer_succ pointer_succ_add slot Stores)

namespace Linkage

variable (state : Processor × Memory)

def outcome : Except Trap Unit := ((step.run state.1).run state.2).1.1

def next : Processor × Memory := (((step.run state.1).run state.2).1.2, ((step.run state.1).run state.2).2)

def written : List Address := writtenAddresses ((step.run state.1).transcript state.2)

def fetched : List Byte := codeBytes ((step.run state.1).transcript state.2)

def cells (base : Word) : (depth : Nat) → List Address
  | 0 => []
  | depth + 1 => evenAddress (slot base (depth + 1)) :: oddAddress (slot base (depth + 1)) :: cells base depth

@[mk_iff]
structure Room (area : List Address) (base : Word) (depth : Nat) : Prop where
  fits : depth ≤ 32768
  apart : ∀ a ∈ cells base depth, a ∉ area

@[mk_iff]
structure CodeAt (loaded : Memory) (area : List Address) (p : Processor) (code : List Byte) : Prop where
  holds : loaded.Holds p.codePage p.pc code
  within : ∀ a ∈ codePath p.codePage p.pc code.length, a ∈ area

@[mk_iff]
structure Continues (area : List Address) (base : Word) (depth : Nat) (state : Processor × Memory) : Prop where
  page : (next state).1.codePage = state.1.codePage
  stack : (next state).1.reg stackPointer = state.1.reg stackPointer
  sequence : (next state).1.pc = state.1.pc + BitVec.ofNat 16 (fetched state).length
  keepsCells : ∀ a ∈ written state, a ∉ cells base depth
  keepsCode : ∀ a ∈ written state, a ∉ area

instance (cells area : List Address) : Decidable (∀ a ∈ cells, a ∉ area) := List.decidableBAll (· ∉ area) cells

instance (path area : List Address) : Decidable (∀ a ∈ path, a ∈ area) := List.decidableBAll (· ∈ area) path

instance (area : List Address) (base : Word) (depth : Nat) : Decidable (Room area base depth) :=
  decidable_of_iff (_ ∧ _) (room_iff area base depth).symm

instance (loaded : Memory) (area : List Address) (p : Processor) (code : List Byte) :
    Decidable (CodeAt loaded area p code) :=
  decidable_of_iff (_ ∧ _) (codeAt_iff loaded area p code).symm

instance (area : List Address) (base : Word) (depth : Nat) (state : Processor × Memory) :
    Decidable (Continues area base depth state) :=
  decidable_of_iff (_ ∧ _ ∧ _ ∧ _ ∧ _) (continues_iff area base depth state).symm

theorem stores_congr {m m' : Memory} {base : Word} {stack : List Word} (h : Stores m base stack)
    (hread : ∀ a ∈ cells base stack.length, m'.read a = m.read a) : Stores m' base stack := by
  induction stack with
  | nil => trivial
  | cons word stack ih =>
    obtain ⟨htop, hrest⟩ := h
    have heven := hread _ List.mem_cons_self
    have hodd := hread _ (List.mem_cons_of_mem _ List.mem_cons_self)
    refine ⟨?_, ih hrest fun a ha => hread a (List.mem_cons_of_mem _ (List.mem_cons_of_mem _ ha))⟩
    rw [wordAt, heven, hodd]
    exact htop

theorem stores_of_append {m : Memory} {base : Word} {words stack : List Word} (h : Stores m base (words ++ stack)) :
    Stores m base stack := by
  induction words with
  | nil => exact h
  | cons word words ih => exact ih h.2

theorem Room.of_succ {area : List Address} {base : Word} {depth : Nat} (h : Room area base (depth + 1)) :
    Room area base depth where
  fits := Nat.le_of_succ_le h.fits
  apart := fun a ha => h.apart a (List.mem_cons_of_mem _ (List.mem_cons_of_mem _ ha))

theorem step_completes {p : Processor} {m : Memory} {code : List Byte} {y : Dialogue (Unit × Processor)}
    (h : Takes p.codePage p.pc code (step.run p) (completed y)) (hcode : m.Holds p.codePage p.pc code) :
    outcome (p, m) = .ok () ∧ next (p, m) = ((y.run m).1.2, (y.run m).2) := by
  have hrun := h.run_eq hcode
  rw [run_completed] at hrun
  rw [outcome, next, hrun]
  exact ⟨rfl, rfl⟩

def withWords (base : Word) (count : Nat) (p : Processor) : Processor :=
  p.setReg stackPointer (pointer base count)

theorem reg_withWords (base : Word) (count : Nat) (p : Processor) :
    (withWords base count p).reg stackPointer = pointer base count := by
  rw [withWords, reg_setReg, if_pos rfl]

theorem withWords_withWords (base : Word) (count more : Nat) (p : Processor) :
    withWords base more (withWords base count p) = withWords base more p := setReg_setReg p _ _ _

/-- The stack holds the words of the open calls, and the code area is as it was loaded. -/
structure Standing (loaded : Memory) (area : List Address) (base : Word) (stack : List Word) (p : Processor)
    (m : Memory) : Prop where
  top : p.reg stackPointer = pointer base stack.length
  stores : Stores m base stack
  code : ∀ a ∈ area, m.read a = loaded.read a

section Standing

variable {loaded m : Memory} {area : List Address} {base word : Word} {words stack : List Word} {p : Processor}

theorem Standing.start (loaded : Memory) (area : List Address) (p : Processor) :
    Standing loaded area (p.reg stackPointer) [] p loaded where
  top := (pointer_zero _).symm
  stores := trivial
  code := fun _ _ => rfl

theorem Standing.holds (h : Standing loaded area base stack p m) {code : List Byte}
    (hcode : CodeAt loaded area p code) : m.Holds p.codePage p.pc code :=
  hcode.holds.congr fun a ha => h.code a (hcode.within a ha)

theorem Standing.withWords_self (h : Standing loaded area base stack p m) : withWords base stack.length p = p := by
  rw [withWords, ← h.top, setReg_reg]

theorem Standing.plain {state : Processor × Memory} (h : Standing loaded area base stack state.1 state.2)
    (hplain : Continues area base stack.length state) :
    Standing loaded area base stack (next state).1 (next state).2 where
  top := hplain.stack.trans h.top
  stores := stores_congr h.stores fun a ha => Dialogue.read_run _ _ fun hmem => hplain.keepsCells a hmem ha
  code := fun a ha => (Dialogue.read_run _ _ fun hmem => hplain.keepsCode a hmem ha).trans (h.code a ha)

theorem Standing.push (h : Standing loaded area base stack p m) (hroom : Room area base (stack.length + 1))
    (word : Word) :
    ∃ m', ((push word).run p).run m = (((), withWords base (stack.length + 1) p), m') ∧
      Standing loaded area base (word :: stack) (withWords base (stack.length + 1) p) m' := by
  refine ⟨m.storeWord (slot base (stack.length + 1)) word, ?_, ?_, ?_, ?_⟩
  · rw [run_push, run_warned, h.top, ← pointer_succ]
    rfl
  · exact reg_withWords base _ p
  · exact ⟨wordAt_storeWord _ _ _, h.stores.storeWord (Nat.lt_succ_self _) hroom.fits word⟩
  · intro a ha
    have heven : a ≠ evenAddress (slot base (stack.length + 1)) := by
      rintro rfl
      exact hroom.apart _ List.mem_cons_self ha
    have hodd : a ≠ oddAddress (slot base (stack.length + 1)) := by
      rintro rfl
      exact hroom.apart _ (List.mem_cons_of_mem _ List.mem_cons_self) ha
    rw [read_storeWord m word heven hodd, h.code a ha]

theorem Standing.pushAll (h : Standing loaded area base stack p m) (words : List Word)
    (hroom : Room area base (words ++ stack).length) :
    ∃ m', ((pushAll words).run p).run m = (((), withWords base (words ++ stack).length p), m') ∧
      Standing loaded area base (words ++ stack) (withWords base (words ++ stack).length p) m' := by
  induction words with
  | nil =>
    rw [List.nil_append, h.withWords_self]
    exact ⟨m, rfl, h⟩
  | cons word words ih =>
    obtain ⟨m', hrun, hstanding⟩ := ih hroom.of_succ
    obtain ⟨m'', hpush, hpushed⟩ := hstanding.push hroom word
    rw [withWords_withWords] at hpush hpushed
    refine ⟨m'', ?_, hpushed⟩
    rw [Routine.pushAll, Routine.run_bind, Dialogue.run_bind, hrun]
    exact hpush

theorem Standing.popped (h : Standing loaded area base (word :: stack) p m) :
    Standing loaded area base stack (withWords base stack.length p) m where
  top := reg_withWords base _ p
  stores := h.stores.2
  code := h.code

theorem Standing.pop_bind {α : Type} (h : Standing loaded area base (word :: stack) p m) (f : Word → Routine α) :
    ((pop >>= f).run p).run m = ((f word).run (withWords base stack.length p)).run m := by
  have hword : m.wordAt (slot base (stack.length + 1)) = word := h.stores.1
  rw [Routine.run_bind, Dialogue.run_bind, run_pop, run_warned, h.top, List.length_cons, pointer_succ_add, ← hword]
  rfl

theorem Standing.returnFromCall {pc : Word} (h : Standing loaded area base (pc :: stack) p m) :
    (Instruction.returnFromCall.run p).run m = (((), { withWords base stack.length p with pc := pc }), m) := by
  rw [Instruction.returnFromCall, h.pop_bind]
  rfl

theorem Standing.returnToPage {page : Byte} {pc : Word}
    (h : Standing loaded area base (page.setWidth 16 :: pc :: stack) p m) :
    (Instruction.returnToPage.run p).run m =
      (((), { withWords base stack.length p with codePage := page, pc := pc }), m) := by
  have hpage : lowByte (page.setWidth 16) = page := by
    rw [lowByte, BitVec.setWidth_setWidth_of_le _ (by decide), BitVec.setWidth_eq]
  rw [Instruction.returnToPage, h.pop_bind, h.popped.pop_bind, withWords_withWords, hpage]
  rfl

theorem Standing.returnFromException {status pc : Word} {page : Byte}
    (h : Standing loaded area base (status :: page.setWidth 16 :: pc :: stack) p m) :
    (Instruction.returnFromException.run p).run m =
      (((), { withWords base stack.length p with
        codePage := page, pc := pc, status := Status.ofWord status, holdsInterrupts := true }), m) := by
  -- The status changes between the pops, which look at the stack pointer only.
  let update : Status → Status := fun _ => Status.ofWord status
  let q := (withWords base (stack.length + 2) p).updateStatus update
  have hq : Standing loaded area base (page.setWidth 16 :: pc :: stack) q m := ⟨h.popped.top, h.popped.stores, h.code⟩
  have hlowered : withWords base stack.length q = (withWords base stack.length p).updateStatus update :=
    congrArg (·.updateStatus update) (withWords_withWords base (stack.length + 2) stack.length p)
  rw [Instruction.returnFromException, h.pop_bind]
  change ((Instruction.returnToPage >>= fun _ => holdInterrupts).run q).run m = _
  rw [Routine.run_bind, Dialogue.run_bind, hq.returnToPage, hlowered]
  rfl

theorem Standing.call (h : Standing loaded area base stack p m) {form : CallForm}
    (hroom : Room area base (form.words + stack.length)) (hcode : CodeAt loaded area p form.code) :
    let entered := next (p, m)
    outcome (p, m) = .ok () ∧ form.Enters p entered.1 ∧ (form.far = false → entered.1.codePage = p.codePage) ∧
      Standing loaded area base (form.frame p.codePage (p.pc + BitVec.ofNat 16 form.code.length) ++ stack)
        entered.1 entered.2 := by
  obtain ⟨houtcome, hnext⟩ := step_completes (form.step_takes p) (h.holds hcode)
  rw [advance_eq] at hnext
  let q := { p with pc := p.pc + BitVec.ofNat 16 form.code.length }
  let words := form.frame q.codePage q.pc
  have hq : Standing loaded area base stack q m := ⟨h.top, h.stores, h.code⟩
  have hlength : (words ++ stack).length = form.words + stack.length := by
    rw [List.length_append, CallForm.length_frame]
  obtain ⟨m', hpush, hpushed⟩ := hq.pushAll words (hlength ▸ hroom)
  have hrun : (form.routine.run q).run m = (((), form.enter (withWords base (words ++ stack).length q)), m') := by
    change ((Routine.pushAll words >>= fun _ => (modify form.enter : Routine Unit)).run q).run m = _
    rw [Routine.run_bind, Dialogue.run_bind, hpush]
    rfl
  rw [hrun] at hnext
  rw [hnext]
  refine ⟨houtcome, CallForm.enters_enter rfl rfl ?_, ?_, hpushed.top, hpushed.stores, hpushed.code⟩
  · intro r hr
    exact (reg_setReg q stackPointer r _).trans (if_neg hr)
  · intro hnear
    exact CallForm.targetPage_near hnear _

theorem Standing.drop (h : Standing loaded area base (words ++ stack) p m) :
    Standing loaded area base stack (withWords base stack.length p) m where
  top := reg_withWords base _ p
  stores := stores_of_append h.stores
  code := h.code

theorem Standing.return {form : CallForm} {page : Byte} {pc : Word}
    (h : Standing loaded area base (form.frame page pc ++ stack) p m) (hcode : CodeAt loaded area p form.returnCode)
    (hpage : form.far = false → p.codePage = page) :
    let returned := next (p, m)
    outcome (p, m) = .ok () ∧ returned.1.codePage = page ∧ returned.1.pc = pc ∧
      Standing loaded area base stack returned.1 returned.2 := by
  obtain ⟨houtcome, hnext⟩ := step_completes (form.return_takes p) (h.holds hcode)
  let q := { p with pc := advance p.pc form.returnCode.length }
  have hq : Standing loaded area base (form.frame page pc ++ stack) q m := ⟨h.top, h.stores, h.code⟩
  have hrun : (form.returns.run q).run m =
      (((), { withWords base stack.length q with codePage := page, pc := pc }), m) := by
    rw [CallForm.frame] at hq
    rw [CallForm.returns]
    cases hfar : form.far with
    | true =>
      rw [hfar, if_pos rfl] at hq
      exact hq.returnToPage
    | false =>
      rw [hfar, if_neg Bool.false_ne_true] at hq
      rw [if_neg Bool.false_ne_true, hq.returnFromCall, ← hpage hfar]
      rfl
  rw [hrun] at hnext
  rw [hnext]
  have hdropped := h.drop
  exact ⟨houtcome, rfl, rfl, hdropped.top, hdropped.stores, hdropped.code⟩

theorem Standing.returnAndDrop {pc : Word} {count : Byte} (h : Standing loaded area base (pc :: stack) p m)
    (hcode : CodeAt loaded area p [0x14, count]) :
    let returned := next (p, m)
    let dropped := pointer base stack.length + displacement count
    outcome (p, m) = (if dropped.getLsbD 0 then .error (.misalignedStack dropped) else .ok ()) ∧
      returned.1.codePage = p.codePage ∧ returned.1.pc = pc ∧ returned.1.reg stackPointer = dropped := by
  intro returned dropped
  have hrun := (returnAndDrop_takes p count).run_eq (h.holds hcode)
  let q := { p with pc := p.pc + 1 + 1 }
  have hq : Standing loaded area base (pc :: stack) q m := ⟨h.top, h.stores, h.code⟩
  have htop : { withWords base stack.length q with pc := pc }.reg stackPointer = pointer base stack.length :=
    reg_withWords base _ q
  rw [Dialogue.bind_assoc, Dialogue.run_bind, hq.returnFromCall, dropBytes_run, htop] at hrun
  have hnext : returned = (_, m) := congrArg (fun r => (r.1.2, r.2)) hrun
  rw [hnext]
  exact ⟨congrArg (·.1.1) hrun, rfl, rfl, (reg_setReg _ _ _ _).trans (if_pos rfl)⟩

end Standing

end Linkage

end Microcontroller
