import Microcontroller.Proofs.Instruction.CallStack
import Microcontroller.Proofs.Instruction.RegisterLists

namespace Microcontroller

namespace Instruction

theorem registerList_pairwise (list : Byte) : (registerList list).Pairwise (· < ·) :=
  (List.pairwise_lt_finRange 8).filter _

theorem mem_registerList {list : Byte} {r : Register} : r ∈ registerList list ↔ list.getLsbD r := by
  simp [registerList]

end Instruction

open Dialogue Memory Processor Routine
open Instruction (mem_registerList registerList registerList_pairwise step)
open Linkage (Standing Room cells next outcome stores_congr withWords reg_withWords withWords_withWords)
open StackCall (pointer pointer_succ getLsbD_pointer slot Stores)

theorem Routine.forM_concat (f : Register → Routine Unit) (rs : List Register) (r : Register) :
    (rs ++ [r]).forM f = (do rs.forM f; f r) := by
  simp only [List.forM_eq_forM, List.forM_append, List.forM_cons, List.forM_nil, bind_pure_unit]

namespace SavedRegisters

open Multiple (save restore code order each bulk_takes run_save run_restore)

def savedWord (p : Processor) (number : Nat) (r : Register) : Word :=
  if r = stackPointer then pointer (p.reg stackPointer) number else p.reg r

def frame (p : Processor) : (rs : List Register) → List Word
  | [] => []
  | r :: rs => savedWord p (rs.length + 1) r :: frame p rs

theorem length_frame (p : Processor) (rs : List Register) : (frame p rs).length = rs.length := by
  induction rs with
  | nil => rfl
  | cons r rs ih => exact congrArg (· + 1) ih

theorem wordAt_frame {p : Processor} {m : Memory} {rs : List Register}
    (h : Stores m (p.reg stackPointer) (frame p rs)) {k : Nat} (hk : k < rs.reverse.length) :
    m.wordAt (slot (p.reg stackPointer) (k + 1)) = savedWord p (k + 1) rs.reverse[k] := by
  induction rs with
  | nil => exact absurd hk (Nat.not_lt_zero k)
  | cons r rs ih =>
    obtain ⟨htop, hrest⟩ := h
    simp only [List.reverse_cons, List.getElem_append]
    split
    next hlower => exact ih hrest hlower
    next hlast =>
      have hlength : k = rs.length := by
        simp only [List.length_reverse, List.length_cons] at hk hlast
        omega
      subst hlength
      rw [length_frame] at htop
      simpa using htop

theorem saves {area : List Address} (p : Processor) (m : Memory) {rs : List Register}
    (hroom : Room area (p.reg stackPointer) rs.length) :
    let s := p.reg stackPointer
    let result := ((rs.reverse.forM save.each).run p).run m
    result.1 = ((), withWords s rs.length p) ∧ Standing m area s (frame p rs) result.1.2 result.2 := by
  induction rs with
  | nil =>
    have hstart := Standing.start m area p
    exact ⟨congrArg (Prod.mk ()) hstart.withWords_self.symm, hstart⟩
  | cons r rs ih =>
    intro s result
    obtain ⟨hrun, hstanding⟩ := ih hroom.of_succ
    let saved := ((rs.reverse.forM save.each).run p).run m
    have hsaved : saved.1.2 = withWords s rs.length p := congrArg Prod.snd hrun
    have hresult : result = ((save.each r).run saved.1.2).run saved.2 := by
      simp only [result, List.reverse_cons, forM_concat, Routine.run_bind, Dialogue.run_bind, saved]
    have hvalue : (if r = stackPointer then saved.1.2.reg r - 2 else saved.1.2.reg r) = savedWord p (rs.length + 1) r := by
      rw [hsaved, withWords, reg_setReg, savedWord, pointer_succ]
      split <;> rfl
    have heach : (save.each r).run saved.1.2 = (push (savedWord p (rs.length + 1) r)).run saved.1.2 := by
      rw [← hvalue]
      rfl
    have hlength := length_frame p rs
    obtain ⟨m', hpush, hpushed⟩ := hstanding.push (hlength.symm ▸ hroom) (savedWord p (rs.length + 1) r)
    rw [hresult, heach, hpush, hlength, hsaved, withWords_withWords]
    rw [hlength, hsaved, withWords_withWords] at hpushed
    exact ⟨rfl, hpushed⟩

section Restore

variable {loaded m : Memory} {area : List Address} {p q : Processor} {rs : List Register}

def takeWord (base : Word) (count : Nat) (r : Register) (word : Word) (q : Processor) : Processor :=
  if r = stackPointer then withWords base count q else (withWords base count q).setReg r word

theorem reg_takeWord (base : Word) (count : Nat) (r : Register) (word : Word) (q : Processor) (other : Register) :
    (takeWord base count r word q).reg other =
      if other = stackPointer then pointer base count else if other = r then word else q.reg other := by
  unfold takeWord withWords
  split <;> simp only [reg_setReg] <;> split_ifs <;> simp_all

theorem takeWord_eq (base : Word) (count : Nat) (r : Register) (word : Word) (q : Processor) :
    takeWord base count r word q = { q with registers := (takeWord base count r word q).registers } := by
  unfold takeWord
  split <;> rfl

theorem restore_one {base word : Word} {stack : List Word} (h : Standing loaded area base (word :: stack) q m)
    (r : Register) :
    let q' := takeWord base stack.length r word q
    ((restore.each r).run q).run m = (((), q'), m) ∧ Standing loaded area base stack q' m := by
  intro q'
  refine ⟨?_, ?_, h.popped.stores, h.code⟩
  · rw [each, h.pop_bind]
    simp only [q', takeWord]
    split <;> rfl
  · rw [reg_takeWord, if_pos rfl]

theorem restores (h : Standing loaded area (p.reg stackPointer) (frame p rs) q m) :
    let result := ((rs.forM restore.each).run q).run m
    result.2 = m ∧ result.1.2 = { q with registers := result.1.2.registers } ∧
      ∀ r, result.1.2.reg r =
        if r = stackPointer then p.reg stackPointer else if r ∈ rs then p.reg r else q.reg r := by
  induction rs generalizing q with
  | nil =>
    refine ⟨rfl, rfl, fun r => ?_⟩
    simp only [List.not_mem_nil, if_false]
    split
    next hr =>
      subst hr
      exact h.top.trans (StackCall.pointer_zero _)
    next => rfl
  | cons r rs ih =>
    intro result
    obtain ⟨hone, hstanding⟩ := restore_one h r
    obtain ⟨hmemory, hfields, hregisters⟩ := ih hstanding
    have hresult : result = _ := Dialogue.run_bind ((restore.each r).run q) _ m
    rw [hone] at hresult
    rw [hresult]
    refine ⟨hmemory, hfields.trans ?_, fun other => (hregisters other).trans ?_⟩
    · rw [takeWord_eq]
    · rw [reg_takeWord]
      by_cases hsp : other = stackPointer
      · rw [if_pos hsp, if_pos hsp]
      · by_cases hr : other = r
        · subst hr
          simp [hsp, savedWord]
        · simp [hsp, hr]

end Restore

section Notices

variable (multiple : Multiple) (p : Processor) (m : Memory)

theorem getLsbD_next (pointer : Word) : (multiple.next pointer).getLsbD 0 = pointer.getLsbD 0 := by
  cases multiple with
  | save => exact getLsbD_pointer pointer 1
  | restore =>
    have hraised := getLsbD_pointer (pointer + 2) 1
    rw [pointer_succ, StackCall.pointer_zero, BitVec.add_sub_cancel] at hraised
    exact hraised.symm

theorem each_warns (r : Register) :
    let x := (multiple.each r).run p
    notices (x.transcript m) = warnings p ∧
      (x.run m).1.2.reg stackPointer = multiple.next (p.reg stackPointer) := by
  cases multiple with
  | save =>
    simp only [run_save, notices_warned, run_warned]
    exact ⟨List.append_nil _, (reg_setReg _ _ _ _).trans (if_pos rfl)⟩
  | restore =>
    by_cases hr : r = stackPointer
    · have hx : (restore.each r).run p = (pop.run p).bind fun result => .done ((), result.2) := by
        rw [each, Routine.run_bind]
        simp only [hr, if_true]
        rfl
      rw [hx, run_pop, warned_bind]
      simp only [notices_warned, run_warned]
      exact ⟨List.append_nil _, (reg_setReg _ _ _ _).trans (if_pos rfl)⟩
    · simp only [run_restore hr, notices_warned, run_warned]
      refine ⟨List.append_nil _, (reg_setReg _ _ _ _).trans ((if_neg (Ne.symm hr)).trans ?_)⟩
      exact (reg_setReg _ _ _ _).trans (if_pos rfl)

theorem notices_forM (rs : List Register) :
    notices (((rs.forM multiple.each).run p).transcript m) =
      if (p.reg stackPointer).getLsbD 0 then List.replicate rs.length (.fault .addressError) else [] := by
  induction rs generalizing p m with
  | nil => exact (ite_self []).symm
  | cons r rs ih =>
    obtain ⟨hfirst, hpointer⟩ := each_warns multiple p m r
    have htranscript : (((r :: rs).forM multiple.each).run p).transcript m = _ :=
      transcript_bind ((multiple.each r).run p) _ m
    rw [htranscript, notices, List.filterMap_append]
    change notices _ ++ notices _ = _
    rw [hfirst, ih, hpointer, getLsbD_next, warnings]
    split <;> rfl

end Notices

theorem step_moves (multiple : Multiple) (list : Byte) {p : Processor} {m : Memory}
    (hcode : m.Holds p.codePage p.pc (multiple.code list)) :
    let moved := ((multiple.order list).forM multiple.each).run { p with pc := p.pc + 2 }
    outcome (p, m) = .ok () ∧ next (p, m) = ((moved.run m).1.2, (moved.run m).2) ∧
      notices ((step.run p).transcript m) =
        if (p.reg stackPointer).getLsbD 0 then List.replicate (registerList list).length (.fault .addressError)
        else [] := by
  intro moved
  have htakes := bulk_takes multiple list p
  obtain ⟨houtcome, hnext⟩ := Linkage.step_completes htakes hcode
  have htraffic := htakes.traffic_eq hcode
  have hlength : (multiple.order list).length = (registerList list).length := by
    cases multiple with
    | save => exact List.length_reverse
    | restore => rfl
  refine ⟨houtcome, hnext, ?_⟩
  rw [← notices_traffic, htraffic, notices_traffic, transcript_completed, notices_forM, hlength]
  rfl

theorem highest_eq_stackPointer {list : Byte} {k : Nat} (hk : k < (registerList list).reverse.length)
    (h : (registerList list).reverse[k] = stackPointer) : k = 0 := by
  by_contra hne
  have hdescending := List.pairwise_reverse.mpr (registerList_pairwise list)
  have hlt := List.pairwise_iff_getElem.mp hdescending 0 k (by omega) hk (Nat.pos_of_ne_zero hne)
  rw [h] at hlt
  exact absurd hlt (Nat.not_lt.mpr (Fin.le_last _))

theorem save_then_restore (list : Byte) (p p' : Processor) (m m' : Memory)
    (hsave : m.Holds p.codePage p.pc (save.code list)) (hrestore : m'.Holds p'.codePage p'.pc (restore.code list))
    (hpointer : p'.reg stackPointer = (next (p, m)).1.reg stackPointer)
    (hframe : ∀ a ∈ cells (p.reg stackPointer) (registerList list).length, m'.read a = (next (p, m)).2.read a) :
    let s := p.reg stackPointer
    let count := (registerList list).length
    let saved := next (p, m)
    let restored := next (p', m')
    outcome (p, m) = .ok () ∧ outcome (p', m') = .ok () ∧
      (∀ r : Register, restored.1.reg r =
        if r = stackPointer then s else if list.getLsbD r then p.reg r else p'.reg r) ∧
      restored.1 = { p' with pc := p'.pc + 2, registers := restored.1.registers } ∧ restored.2 = m' ∧
      saved.1 = { p.setReg stackPointer (s - BitVec.ofNat 16 (2 * count)) with pc := p.pc + 2 } ∧
      (∀ (k : Nat) (hk : k < (registerList list).reverse.length),
        let r := (registerList list).reverse[k]
        saved.2.wordAt (address 0 (s - BitVec.ofNat 16 (2 * (k + 1)))) = if r = stackPointer then s - 2 else p.reg r) ∧
      (∀ a, a ∉ cells s count → saved.2.read a = m.read a) ∧
      notices ((step.run p).transcript m) ++ notices ((step.run p').transcript m') =
        if s.getLsbD 0 then List.replicate (2 * count) (.fault .addressError) else [] := by
  intro s count saved restored
  obtain ⟨hok, hsaved, hnotices⟩ := step_moves save list hsave
  obtain ⟨hok', hrestored, hnotices'⟩ := step_moves restore list hrestore
  let start : Processor := { p with pc := p.pc + 2 }
  let start' : Processor := { p' with pc := p'.pc + 2 }
  have hfits : count ≤ 32768 := by
    have hle : count ≤ 8 := (List.length_filter_le _ _).trans_eq List.length_finRange
    exact Nat.le_trans hle (by decide)
  have hsaves {area : List Address} (h : ∀ a ∈ cells s count, a ∉ area) :
      saved.1 = withWords s count start ∧ Standing m area s (frame start (registerList list)) saved.1 saved.2 := by
    obtain ⟨hrun, hstanding⟩ := saves start m (⟨hfits, h⟩ : Room area s count)
    have hsaved' : saved = _ := hsaved
    rw [hsaved']
    exact ⟨congrArg Prod.snd hrun, hstanding⟩
  obtain ⟨hprocessor, hstanding⟩ := hsaves fun _ _ => List.not_mem_nil
  have hstack : Standing m' [] s (frame start (registerList list)) start' m' := by
    refine ⟨hpointer.trans hstanding.top, stores_congr hstanding.stores ?_, fun _ _ => rfl⟩
    rw [length_frame]
    exact hframe
  obtain ⟨hmemory, hfields, hregisters⟩ := restores (p := start) hstack
  have hrestored' : restored = _ := hrestored
  refine ⟨hok, hok', fun r => ?_, ?_, ?_, ?_, fun k hk => ?_, fun a ha => ?_, ?_⟩
  · rw [hrestored']
    refine (hregisters r).trans ?_
    simp only [mem_registerList]
    rfl
  · rw [hrestored']
    exact hfields
  · rw [hrestored']
    exact hmemory
  · exact hprocessor
  · intro r
    have hword := wordAt_frame (p := start) hstanding.stores hk
    refine Eq.trans hword ?_
    by_cases hr : r = stackPointer
    · have hk₀ := highest_eq_stackPointer hk hr
      subst hk₀
      rw [savedWord, if_pos hr, if_pos hr]
      rfl
    · rw [savedWord, if_neg hr, if_neg hr]
      rfl
  · have hapart : ∀ b ∈ cells s count, b ∉ [a] := fun b hb hmem => ha (List.mem_singleton.mp hmem ▸ hb)
    exact (hsaves hapart).2.code a (List.mem_singleton_self a)
  · rw [hnotices, hnotices', hpointer, hstanding.top, getLsbD_pointer, Nat.two_mul]
    split
    next => exact List.replicate_append_replicate
    next => rfl

theorem save_then_restore_odd_wrap :
    let p := { (Processor.new.setReg 1 0x1234).setReg stackPointer 1 with pc := 0x8000 }
    let m := ((((filled 0).write 0x8000 0x12).write 0x8001 0x82).write 0x8002 0x02).write 0x8003 0x82
    let saved := next (p, m)
    let p' := { (Processor.new.setReg 0 0x5555).setReg stackPointer 0xFFFD with pc := 0x8002 }
    let restored := next (p', saved.2)
    m.Holds p.codePage p.pc (save.code 0x82) ∧ saved.2.Holds p'.codePage p'.pc (restore.code 0x82) ∧
      p'.reg stackPointer = saved.1.reg stackPointer ∧
      saved.2.wordAt 0xFFFF = 0xFFFF ∧ saved.2.wordAt 0xFFFD = 0x1234 ∧
      restored.1.reg 0 = 0x5555 ∧ restored.1.reg 1 = 0x1234 ∧ restored.1.reg stackPointer = 1 ∧
      notices ((step.run p).transcript m) ++ notices ((step.run p').transcript saved.2) =
        List.replicate 4 (.fault .addressError) := by
  intro p m saved p' restored
  have hsave : m.Holds p.codePage p.pc (save.code 0x82) := by decide
  have hrestore : saved.2.Holds p'.codePage p'.pc (restore.code 0x82) := by decide +kernel
  have hpointer : p'.reg stackPointer = saved.1.reg stackPointer := by decide +kernel
  obtain ⟨-, -, hregisters, -, -, -, hwords, -, hnotices⟩ :=
    save_then_restore 0x82 p p' m saved.2 hsave hrestore hpointer fun _ _ => rfl
  have hfirst := hwords 0 (by decide)
  have hsecond := hwords 1 (by decide)
  have hcells : address 0 (p.reg stackPointer - BitVec.ofNat 16 2) = 0xFFFF ∧
      address 0 (p.reg stackPointer - BitVec.ofNat 16 4) = 0xFFFD := by decide
  rw [hcells.1] at hfirst
  rw [hcells.2] at hsecond
  refine ⟨hsave, hrestore, hpointer, hfirst.trans ?_, hsecond.trans ?_, (hregisters 0).trans ?_, (hregisters 1).trans ?_,
    hregisters stackPointer, hnotices.trans ?_⟩
  all_goals decide

end SavedRegisters

end Microcontroller
