import Mathlib.Algebra.Group.Nat.Defs
import Mathlib.Data.List.Induction
import Mathlib.Data.List.Infix
import Mathlib.Data.List.MinMax
import Microcontroller.Proofs.Processor.StackAccess

namespace Microcontroller

open Processor (stackPointer)
open Routine (run_bind run_push run_pop run_warned warned_bind warnings notices_warned writtenAddresses_warned)

inductive StackCall where
  | push (value : Word)
  | pop
  deriving DecidableEq

namespace StackCall

def routine : StackCall → Routine (Option Word)
  | push value => do
    Routine.push value
    return none
  | pop => return some (← Routine.pop)

def perform (call : StackCall) (state : Processor × Memory) : (Option Word × Processor) × Memory :=
  (call.routine.run state.1).run state.2

def transcript (call : StackCall) (state : Processor × Memory) : List Call :=
  (call.routine.run state.1).transcript state.2

def reply (call : StackCall) (state : Processor × Memory) : Option Word := (call.perform state).1.1

def next (call : StackCall) (state : Processor × Memory) : Processor × Memory :=
  ((call.perform state).1.2, (call.perform state).2)

def run (calls : List StackCall) (state : Processor × Memory) : Processor × Memory :=
  calls.foldl (fun state call => call.next state) state

def act : StackCall → List Word → List Word
  | push value, stack => value :: stack
  | pop, stack => stack.tail

def answer : StackCall → List Word → Option Word
  | push _, _ => none
  | pop, stack => stack.head?

def contents (calls : List StackCall) : List Word := calls.foldl (fun stack call => call.act stack) []

def isPush (call : StackCall) : Bool := call matches push _

def pushes (calls : List StackCall) : Nat := calls.countP isPush

def pops (calls : List StackCall) : Nat := calls.count pop

def outstanding (calls : List StackCall) : Nat := pushes calls - pops calls

def deepest (calls : List StackCall) : Nat := (calls.inits.map outstanding).foldr max 0

theorem run_snoc (calls : List StackCall) (call : StackCall) (state : Processor × Memory) :
    run (calls ++ [call]) state = call.next (run calls state) := List.foldl_append

theorem contents_snoc (calls : List StackCall) (call : StackCall) :
    contents (calls ++ [call]) = call.act (contents calls) := List.foldl_append

theorem outstanding_le_deepest {done calls : List StackCall} (h : done ∈ calls.inits) :
    outstanding done ≤ deepest calls := List.le_max_of_le' 0 (List.mem_map_of_mem h) (Nat.le_refl _)

theorem mem_inits_of_snoc {done calls : List StackCall} {call : StackCall} (h : done ++ [call] ∈ calls.inits) :
    done ∈ calls.inits := by
  rw [List.mem_inits] at h ⊢
  exact (List.prefix_append done [call]).trans h

theorem pushes_snoc_push (calls : List StackCall) (value : Word) : pushes (calls ++ [push value]) = pushes calls + 1 :=
  List.countP_append

theorem pushes_snoc_pop (calls : List StackCall) : pushes (calls ++ [pop]) = pushes calls := List.countP_append

theorem pops_snoc_push (calls : List StackCall) (value : Word) : pops (calls ++ [push value]) = pops calls :=
  List.count_append

theorem pops_snoc_pop (calls : List StackCall) : pops (calls ++ [pop]) = pops calls + 1 := List.count_append

section Contents

variable {calls : List StackCall} (hpops : ∀ done ∈ calls.inits, pops done ≤ pushes done)

include hpops

theorem length_contents {done : List StackCall} (hdone : done ∈ calls.inits) :
    (contents done).length + pops done = pushes done := by
  induction done using List.reverseRecOn with
  | nil => rfl
  | append_singleton done call ih =>
    have hbefore := ih (mem_inits_of_snoc hdone)
    have hafter := hpops _ hdone
    rw [contents_snoc]
    cases call with
    | push value =>
      rw [pushes_snoc_push, pops_snoc_push, act, List.length_cons]
      omega
    | pop =>
      rw [pushes_snoc_pop, pops_snoc_pop] at hafter ⊢
      rw [act, List.length_tail]
      omega

theorem outstanding_eq {done : List StackCall} (hdone : done ∈ calls.inits) :
    outstanding done = (contents done).length := by
  have hlength := length_contents hpops hdone
  rw [outstanding]
  omega

theorem length_contents_le {done : List StackCall} (hdone : done ∈ calls.inits) :
    (contents done).length ≤ deepest calls := by
  rw [← outstanding_eq hpops hdone]
  exact outstanding_le_deepest hdone

theorem contents_ne_nil {done : List StackCall} (hdone : done ++ [pop] ∈ calls.inits) : contents done ≠ [] := by
  have hlength := length_contents hpops (mem_inits_of_snoc hdone)
  have hafter := hpops _ hdone
  rw [pushes_snoc_pop, pops_snoc_pop] at hafter
  apply List.ne_nil_of_length_pos
  omega

end Contents

def pointer (s : Word) (n : Nat) : Word := s - BitVec.ofNat 16 (2 * n)

theorem toNat_pointer (s : Word) (n : Nat) : (pointer s n).toNat = (2 ^ 16 - 2 * n % 2 ^ 16 + s.toNat) % 2 ^ 16 := by
  rw [pointer, BitVec.toNat_sub, BitVec.toNat_ofNat]

theorem pointer_zero (s : Word) : pointer s 0 = s := BitVec.sub_zero s

theorem pointer_succ (s : Word) (n : Nat) : pointer s (n + 1) = pointer s n - 2 := by
  apply BitVec.eq_of_toNat_eq
  rw [BitVec.toNat_sub, toNat_pointer, toNat_pointer]
  change _ = (2 ^ 16 - 2 + _) % 2 ^ 16
  omega

theorem pointer_succ_add (s : Word) (n : Nat) : pointer s (n + 1) + 2 = pointer s n := by
  rw [pointer_succ, BitVec.sub_add_cancel]

theorem getLsbD_pointer (s : Word) (n : Nat) : (pointer s n).getLsbD 0 = s.getLsbD 0 := by
  have hparity : (pointer s n).toNat % 2 = s.toNat % 2 := by
    rw [toNat_pointer]
    omega
  rw [BitVec.getLsbD, BitVec.getLsbD, Nat.testBit_zero, Nat.testBit_zero, hparity]

def slot (s : Word) (n : Nat) : Address := address 0 (pointer s n)

theorem half_slot_ne (s : Word) {i j : Nat} (hi : 0 < i) (hij : i < j) (hj : j ≤ 32768) :
    (slot s j).toNat / 2 ≠ (slot s i).toNat / 2 := by
  -- All slots have the parity of the start, so they could meet only after a whole page of `32768` words.
  rw [slot, slot, toNat_address_zero, toNat_address_zero, toNat_pointer, toNat_pointer]
  omega

def Stores (m : Memory) (s : Word) : (stack : List Word) → Prop
  | [] => True
  | value :: stack => m.wordAt (slot s (stack.length + 1)) = value ∧ Stores m s stack

theorem Stores.storeWord {m : Memory} {s : Word} {stack : List Word} (h : Stores m s stack) {n : Nat}
    (hbelow : stack.length < n) (hroom : n ≤ 32768) (value : Word) :
    Stores (m.storeWord (slot s n) value) s stack := by
  induction stack with
  | nil => trivial
  | cons top stack ih =>
    obtain ⟨htop, hrest⟩ := h
    have hne := half_slot_ne s (Nat.succ_pos stack.length) hbelow hroom
    have hlower : stack.length < n := Nat.lt_of_succ_lt hbelow
    exact ⟨(m.wordAt_storeWord_of_ne value hne).trans htop, ih hrest hlower⟩

section Calls

variable (state : Processor × Memory)

theorem perform_push (value : Word) :
    let below := state.1.reg stackPointer - 2
    (push value).perform state =
      ((none, state.1.setReg stackPointer below), state.2.storeWord (address 0 below) value) := by
  rw [perform, routine, run_bind, run_push, warned_bind, run_warned]
  rfl

theorem perform_pop :
    let top := state.1.reg stackPointer
    pop.perform state =
      ((some (state.2.wordAt (address 0 top)), state.1.setReg stackPointer (top + 2)), state.2) := by
  rw [perform, routine, run_bind, run_pop, warned_bind, run_warned]
  rfl

theorem notices_transcript (call : StackCall) : notices (call.transcript state) = warnings state.1 := by
  cases call with
  | push value =>
    rw [transcript, routine, run_bind, run_push, warned_bind, notices_warned]
    exact List.append_nil _
  | pop =>
    rw [transcript, routine, run_bind, run_pop, warned_bind, notices_warned]
    exact List.append_nil _

theorem writtenAddresses_push (value : Word) :
    let below := address 0 (state.1.reg stackPointer - 2)
    writtenAddresses ((push value).transcript state) = [evenAddress below, oddAddress below] := by
  rw [transcript, routine, run_bind, run_push, warned_bind, writtenAddresses_warned]
  rfl

theorem writtenAddresses_pop : writtenAddresses (pop.transcript state) = [] := by
  rw [transcript, routine, run_bind, run_pop, warned_bind, writtenAddresses_warned]
  rfl

end Calls

/-- The state represents an abstract stack that started empty on this processor. -/
structure Represents (p : Processor) (stack : List Word) (state : Processor × Memory) : Prop where
  processor : state.1 = p.setReg stackPointer (pointer (p.reg stackPointer) stack.length)
  memory : Stores state.2 (p.reg stackPointer) stack

theorem represents_nil (p : Processor) (m : Memory) : Represents p [] (p, m) where
  processor := by rw [List.length_nil, pointer_zero, Processor.setReg_reg]
  memory := trivial

section Represents

variable {p : Processor} {stack : List Word} {state : Processor × Memory} {value : Word}

theorem Represents.stackPointer_eq (h : Represents p stack state) :
    state.1.reg stackPointer = pointer (p.reg stackPointer) stack.length := by
  rw [h.processor, Processor.reg_setReg, if_pos rfl]

theorem Represents.perform_push (h : Represents p stack state) (value : Word) :
    (push value).perform state =
      ((none, p.setReg stackPointer (pointer (p.reg stackPointer) (stack.length + 1))),
        state.2.storeWord (slot (p.reg stackPointer) (stack.length + 1)) value) := by
  rw [StackCall.perform_push, h.stackPointer_eq, ← pointer_succ, h.processor, Processor.setReg_setReg, slot]

theorem Represents.perform_pop (h : Represents p (value :: stack) state) :
    pop.perform state =
      ((some value, p.setReg stackPointer (pointer (p.reg stackPointer) stack.length)), state.2) := by
  have hvalue : state.2.wordAt (address 0 (pointer (p.reg stackPointer) (stack.length + 1))) = value := h.memory.1
  rw [StackCall.perform_pop, h.stackPointer_eq, List.length_cons, hvalue, pointer_succ_add, h.processor,
    Processor.setReg_setReg]

theorem Represents.after_push (h : Represents p stack state) (hroom : stack.length < 32768) (value : Word) :
    Represents p (value :: stack) ((push value).next state) := by
  rw [next, h.perform_push]
  exact ⟨rfl, Memory.wordAt_storeWord _ _ _, h.memory.storeWord (Nat.lt_succ_self _) hroom value⟩

theorem Represents.after_pop (h : Represents p (value :: stack) state) : Represents p stack (pop.next state) := by
  rw [next, h.perform_pop]
  exact ⟨rfl, h.memory.2⟩

theorem Represents.after_call (h : Represents p stack state) {call : StackCall}
    (hroom : (call.act stack).length ≤ 32768) (hstack : call = pop → stack ≠ []) :
    call.reply state = call.answer stack ∧ Represents p (call.act stack) (call.next state) := by
  cases call with
  | push value => exact ⟨congrArg (·.1.1) (h.perform_push value), h.after_push hroom value⟩
  | pop =>
    cases stack with
    | nil => exact absurd rfl (hstack rfl)
    | cons top stack => exact ⟨congrArg (·.1.1) h.perform_pop, h.after_pop⟩

end Represents

section Run

variable {calls : List StackCall} (hpops : ∀ done ∈ calls.inits, pops done ≤ pushes done)
  (hdeepest : deepest calls ≤ 32768)

include hpops hdeepest

theorem Represents.after_snoc {p : Processor} {done : List StackCall} {state : Processor × Memory} {call : StackCall}
    (h : Represents p (contents done) state) (hdone : done ++ [call] ∈ calls.inits) :
    call.reply state = call.answer (contents done) ∧ Represents p (contents (done ++ [call])) (call.next state) := by
  have hlength := length_contents_le hpops hdone
  rw [contents_snoc] at hlength ⊢
  apply h.after_call (Nat.le_trans hlength hdeepest)
  rintro rfl
  exact contents_ne_nil hpops hdone

theorem represents_run (p : Processor) (m : Memory) {done : List StackCall} (hdone : done ∈ calls.inits) :
    Represents p (contents done) (run done (p, m)) := by
  induction done using List.reverseRecOn with
  | nil => exact represents_nil p m
  | append_singleton done call ih =>
    rw [run_snoc]
    exact ((ih (mem_inits_of_snoc hdone)).after_snoc hpops hdeepest hdone).2

end Run

theorem calls_follow_stack (p : Processor) (m : Memory) (calls : List StackCall)
    (hpops : ∀ done ∈ calls.inits, pops done ≤ pushes done) (hdeepest : deepest calls ≤ 32768)
    (done : List StackCall) (call : StackCall) (hdone : done ++ [call] ∈ calls.inits) :
    let s := p.reg stackPointer
    let before := run done (p, m)
    let after := run (done ++ [call]) (p, m)
    call.reply before = call.answer (contents done) ∧
      after.1 = p.setReg stackPointer (s - BitVec.ofNat 16 (2 * outstanding (done ++ [call]))) ∧
      (∀ a ∈ writtenAddresses (call.transcript before), ∃ i, 1 ≤ i ∧ i ≤ deepest calls ∧
        (a = evenAddress (address 0 (s - BitVec.ofNat 16 (2 * i))) ∨
          a = oddAddress (address 0 (s - BitVec.ofNat 16 (2 * i))))) ∧
      notices (call.transcript before) = if s.getLsbD 0 then [.fault .addressError] else [] := by
  intro s before after
  have hbefore := represents_run hpops hdeepest p m (mem_inits_of_snoc hdone)
  have hafter := represents_run hpops hdeepest p m hdone
  refine ⟨(hbefore.after_snoc hpops hdeepest hdone).1, ?_, ?_, ?_⟩
  · rw [outstanding_eq hpops hdone]
    exact hafter.processor
  · cases call with
    | push value =>
      have hlength := length_contents_le hpops hdone
      rw [contents_snoc] at hlength
      rw [writtenAddresses_push, hbefore.stackPointer_eq, ← pointer_succ]
      intro a ha
      have hpair := List.mem_pair.mp ha
      exact ⟨(contents done).length + 1, Nat.succ_pos _, hlength, hpair⟩
    | pop =>
      rw [writtenAddresses_pop]
      exact nofun
  · rw [notices_transcript, warnings, hbefore.stackPointer_eq, getLsbD_pointer]

theorem calls_follow_stack_odd_wrap :
    let p := Processor.new.setReg stackPointer 1
    let done := [push 0x1234, push 0xABCD]
    let calls := [push 0x1234, push 0xABCD, pop, pop]
    let before := run done (p, Memory.filled 0)
    (∀ done ∈ calls.inits, pops done ≤ pushes done) ∧ deepest calls ≤ 32768 ∧ done ++ [pop] ∈ calls.inits ∧
      pop.reply before = some 0xABCD ∧
      (run (done ++ [pop]) (p, Memory.filled 0)).1 = p.setReg stackPointer 0xFFFF ∧
      notices (pop.transcript before) = [.fault .addressError] := by
  intro p done calls before
  have hpops : ∀ done ∈ calls.inits, pops done ≤ pushes done := by decide
  have hdeepest : deepest calls ≤ 32768 := by decide
  have hdone : done ++ [pop] ∈ calls.inits := by decide
  obtain ⟨hreply, hprocessor, -, hnotices⟩ := calls_follow_stack p (Memory.filled 0) calls hpops hdeepest done pop hdone
  have hodd : (p.reg stackPointer).getLsbD 0 = true := by decide
  exact ⟨hpops, hdeepest, hdone, hreply, hprocessor, hnotices.trans (if_pos hodd)⟩

end StackCall

end Microcontroller
