import Microcontroller.Proofs.Instruction.References
import Microcontroller.Proofs.Processor.StackDiscipline
import Microcontroller.Proofs.Processor.StatusFlags

namespace Microcontroller

open Dialogue Memory Processor Routine
open Instruction (registerList step steps)
open Twin (withRegister)

inductive Multiple where
  | save
  | restore
  deriving DecidableEq

namespace Multiple

def code (multiple : Multiple) (list : Byte) : List Byte :=
  match multiple with
  | save => [0x12, list]
  | restore => [0x02, list]

def order (multiple : Multiple) (list : Byte) : List Register :=
  match multiple with
  | save => (registerList list).reverse
  | restore => registerList list

def single (multiple : Multiple) (r : Register) : List Byte :=
  match multiple with
  | save => [0xBF, withRegister 0x90 r]
  | restore => [0xCF, withRegister 0x80 r]

def singles (multiple : Multiple) (list : Byte) : List Byte := (multiple.order list).flatMap multiple.single

def next (multiple : Multiple) (pointer : Word) : Word :=
  match multiple with
  | save => pointer - 2
  | restore => pointer + 2

def slot (multiple : Multiple) (pointer : Word) : Word :=
  match multiple with
  | save => pointer - 2
  | restore => pointer

def cells (multiple : Multiple) (pointer : Word) : (n : Nat) → List Address
  | 0 => []
  | n + 1 =>
    evenAddress (address 0 (multiple.slot pointer)) :: oddAddress (address 0 (multiple.slot pointer)) ::
      multiple.cells (multiple.next pointer) n

def each (multiple : Multiple) (r : Register) : Routine Unit :=
  match multiple with
  | save => do
    let value := (← get).reg r
    push (if r = stackPointer then value - 2 else value)
  | restore => do
    let value ← pop
    unless r = stackPointer do setReg r value

theorem bulk_takes (multiple : Multiple) (list : Byte) (p : Processor) :
    Takes p.codePage p.pc (multiple.code list) (step.run p)
      (completed (((multiple.order list).forM multiple.each).run { p with pc := p.pc + 2 })) := by
  have hpc : p.pc + 2 = p.pc + 1 + 1 := (BitVec.add_assoc p.pc 1 1).symm
  rw [hpc]
  cases multiple with
  | save =>
    have hform : (Form.ofByte 0x12).execute 0x12 = liftM Instruction.storeMultiple := rfl
    apply Instruction.step_takes hform
    exact ⟨_, rfl, rfl⟩
  | restore =>
    have hform : (Form.ofByte 0x02).execute 0x02 = liftM Instruction.loadMultiple := rfl
    apply Instruction.step_takes hform
    exact ⟨_, rfl, rfl⟩

theorem run_save (r : Register) (p : Processor) :
    let q := p.setReg stackPointer (p.reg stackPointer - 2)
    let a := address 0 (p.reg stackPointer - 2)
    (save.each r).run p =
      warned p (.write (evenAddress a) (highByte (q.reg r)) (.write (oddAddress a) (lowByte (q.reg r)) (.done ((), q)))) := by
  intro q a
  have hvalue : (if r = stackPointer then p.reg r - 2 else p.reg r) = q.reg r := by
    rw [reg_setReg]
    split
    next h => rw [h]
    next => rfl
  rw [each, Routine.run_bind, Routine.run_get, done_bind, run_push, hvalue]

theorem run_restore {r : Register} (hr : r ≠ stackPointer) (p : Processor) :
    let a := address 0 (p.reg stackPointer)
    (restore.each r).run p =
      warned p (.read (evenAddress a) fun high => .read (oddAddress a) fun low =>
        .done ((), (p.setReg stackPointer (p.reg stackPointer + 2)).setReg r (wordOf high low))) := by
  intro a
  rw [each, Routine.run_bind, run_pop, warned_bind]
  simp only [hr, if_false, read_bind, done_bind]
  rfl

def Moves (multiple : Multiple) (r : Register) : Prop := multiple = restore → r ≠ stackPointer

end Multiple

namespace Operand

theorem run_assign_word {offset : Word} {p : Processor} (hoffset : offset.getLsbD 0 = (p.reg stackPointer).getLsbD 0)
    (value : Word) (q : Processor) :
    (assign ⟨.memory 0 offset, .word, false⟩ (value.setWidth 32)).run q =
      warned p (.write (evenAddress (address 0 offset)) (highByte value)
        (.write (oddAddress (address 0 offset)) (lowByte value)
          (.done ((), q.updateStatus (·.withResult (value.setWidth 32) .word))))) := by
  simp only [assign, write, word_of_long, Routine.run_bind, run_checkAlignment, hoffset, warned]
  split <;> rfl

theorem run_load_word (p : Processor) (r : Register) (q : Processor) :
    let offset := p.reg stackPointer
    (load ⟨.memory 0 offset, .word, false⟩ r).run q =
      warned p (.read (evenAddress (address 0 offset)) fun high => .read (oddAddress (address 0 offset)) fun low =>
        .done ((), (q.setReg r (wordOf high low)).updateStatus (·.withResult ((wordOf high low).setWidth 32) .word))) := by
  intro offset
  have hload : load ⟨.memory 0 offset, .word, false⟩ r = (do
      checkAlignment offset
      let data ← readWord (address 0 offset)
      setReg r data
      report (data.setWidth 32) .word) := by
    simp only [load, read, LawfulMonad.bind_assoc, pure_bind, Instruction.store_word]
  simp only [hload, Routine.run_bind, run_checkAlignment, warned, offset]
  split <;> rfl

end Operand

namespace Multiple

section Single

variable {p : Processor} (hpage : p.stackPage = 0) (pc : Word) (status : Status) {r : Register}

include hpage

theorem store_takes :
    Takes p.codePage pc (save.single r) (step.run { p with pc := pc, status := status })
      (((save.each r).run p).bind fun result => .done (.ok (), { result.2 with
        pc := pc + 2
        status := status.withResult (result.2.long r) .word })) := by
  obtain ⟨hcode, hindex, hregister⟩ := Twin.code_fields 0x90 (by decide) r
  let q : Processor := { p with pc := pc, status := status }
  let reference : Reference .word := .memory (.preDecrement stackPointer)
  have hplace : reference.place q = .memory 0 (p.reg stackPointer - 2) := congrArg (Place.memory · _) hpage
  have hexecute : GeneralForm.execute
      ⟨reference.operand q false, withRegister 0x90 r >>> 3, registerField (withRegister 0x90 r)⟩ =
        liftM (get >>= fun p' => Operand.assign ⟨.memory 0 (p.reg stackPointer - 2), .word, false⟩ (p'.long r)) := by
    rw [hindex, hregister, Reference.operand, hplace]
    exact GeneralForm.execute_store _ _ .word r
  have halignment : (p.reg stackPointer - 2).getLsbD 0 = (p.reg stackPointer).getLsbD 0 :=
    StackCall.getLsbD_pointer _ 1
  have h := reference.step_takes q hcode hexecute
  rw [Routine.run_bind, Routine.run_get, done_bind, Processor.long, Operand.run_assign_word halignment, completed,
    warned_bind] at h
  rw [run_save, warned_bind]
  exact h

theorem load_takes (hr : r ≠ stackPointer) :
    Takes p.codePage pc (restore.single r) (step.run { p with pc := pc, status := status })
      (((restore.each r).run p).bind fun result => .done (.ok (), { result.2 with
        pc := pc + 2
        status := status.withResult (result.2.long r) .word })) := by
  obtain ⟨hcode, hindex, hregister⟩ := Twin.code_fields 0x80 (by decide) r
  let q : Processor := { p with pc := pc, status := status }
  let reference : Reference .word := .memory (.postIncrement stackPointer)
  have hplace : reference.place q = .memory 0 (p.reg stackPointer) := congrArg (Place.memory · _) hpage
  have hexecute : GeneralForm.execute
      ⟨reference.operand q false, withRegister 0x80 r >>> 3, registerField (withRegister 0x80 r)⟩ =
        liftM (Operand.load ⟨.memory 0 (p.reg stackPointer), .word, false⟩ r) := by
    rw [hindex, hregister, Reference.operand, hplace]
    exact GeneralForm.execute_load _ r rfl
  have hlong (high low : Byte) (p' : Processor) : (p'.setReg r (wordOf high low)).long r = (wordOf high low).setWidth 32 := by
    rw [Processor.long, reg_setReg, if_pos rfl]
  have h := reference.step_takes q hcode hexecute
  rw [Operand.run_load_word, completed, warned_bind] at h
  rw [run_restore hr, warned_bind]
  simp only [read_bind, done_bind, hlong] at h ⊢
  exact h

theorem single_takes {multiple : Multiple} (hr : multiple.Moves r) :
    Takes p.codePage pc (multiple.single r) (step.run { p with pc := pc, status := status })
      (((multiple.each r).run p).bind fun result => .done (.ok (), { result.2 with
        pc := pc + 2
        status := status.withResult (result.2.long r) .word })) := by
  cases multiple with
  | save => exact store_takes hpage pc status
  | restore => exact load_takes hpage pc status (hr rfl)

end Single

theorem each_effect {multiple : Multiple} {r : Register} (hr : multiple.Moves r) (p : Processor) (m : Memory) :
    let x := (multiple.each r).run p
    let q := (x.run m).1.2
    q.stackPage = p.stackPage ∧ q.codePage = p.codePage ∧ q.status = p.status ∧
      q.reg stackPointer = multiple.next (p.reg stackPointer) ∧
      dataAddresses (x.transcript m) = multiple.cells (p.reg stackPointer) 1 ∧ codeAddresses (x.transcript m) = [] := by
  intro x q
  cases multiple with
  | save =>
    simp only [q, x, run_save, run_warned]
    refine ⟨rfl, rfl, rfl, (reg_setReg _ _ _ _).trans (if_pos rfl), ?_⟩
    unfold warned
    split <;> exact ⟨rfl, rfl⟩
  | restore =>
    simp only [q, x, run_restore (hr rfl), run_warned]
    refine ⟨rfl, rfl, rfl, ?_, ?_⟩
    · exact (reg_setReg _ _ _ _).trans ((if_neg (hr rfl).symm).trans ((reg_setReg _ _ _ _).trans (if_pos rfl)))
    · unfold warned
      split <;> exact ⟨rfl, rfl⟩

theorem single_agrees {multiple : Multiple} {area : List Address} {r : Register} (hr : multiple.Moves r)
    {p : Processor} (pc : Word) (status : Status) {m m' : Memory} (hpage : p.stackPage = 0)
    (hcode : m'.Holds p.codePage pc (multiple.single r)) (hagree : AgreeOutside area m m')
    (hcells : ∀ a ∈ multiple.cells (p.reg stackPointer) 1, a ∉ area) :
    let x := (multiple.each r).run p
    let q := (x.run m).1.2
    let single := step.run { p with pc := pc, status := status }
    ∃ m₁, single.run m' = ((.ok (), { q with pc := pc + 2, status := status.withResult (q.long r) .word }), m₁) ∧
      traffic (x.transcript m) = traffic (single.transcript m') ∧ AgreeOutside area (x.run m).2 m₁ ∧
        ∀ a ∈ area, m₁.read a = m'.read a := by
  intro x q single
  obtain ⟨-, -, -, -, hdata, hfetch⟩ := each_effect hr p m
  have havoid : Avoids area (x.transcript m) := by
    intro a ha
    rw [hdata] at ha
    exact hcells a ha
  obtain ⟨hvalue, hcalls, hmemory⟩ := run_agree x hagree hfetch havoid
  have htakes := single_takes hpage pc status hr
  refine ⟨(x.run m').2, ?_, ?_, hmemory, fun a ha => Avoids.read_run (hcalls ▸ havoid) ha⟩
  · rw [htakes.run_eq hcode, Dialogue.run_bind, ← hvalue]
    rfl
  · rw [htakes.traffic_eq hcode, transcript_bind, ← hcalls]
    exact congrArg traffic (List.append_nil _).symm

theorem singles_agree {multiple : Multiple} {area : List Address} {rs : List Register}
    (hrs : ∀ r ∈ rs, multiple.Moves r) {p : Processor} (pc : Word) (status : Status) {m m' : Memory}
    (hpage : p.stackPage = 0) (hcode : m'.Holds p.codePage pc (rs.flatMap multiple.single))
    (harea : codePath p.codePage pc (rs.flatMap multiple.single).length ⊆ area) (hagree : AgreeOutside area m m')
    (hcells : ∀ a ∈ multiple.cells (p.reg stackPointer) rs.length, a ∉ area) :
    let bulk := (rs.forM multiple.each).run p
    let singles := (steps rs.length).run { p with pc := pc, status := status }
    ∃ pc' status', (singles.run m').1 = (.ok (), { (bulk.run m).1.2 with pc := pc', status := status' }) ∧
      (bulk.run m).1.2.status = p.status ∧ status'.masked = status.masked ∧
        status'.get .carry = status.get .carry ∧ traffic (bulk.transcript m) = traffic (singles.transcript m') ∧
          AgreeOutside area (bulk.run m).2 (singles.run m').2 := by
  -- The single moves advance the program counter and set flags of their own, so both are general.
  induction rs generalizing p pc status m m' with
  | nil => exact ⟨pc, status, rfl, rfl, rfl, rfl, rfl, hagree⟩
  | cons r rs ih =>
    intro bulk singles
    rw [List.flatMap_cons] at hcode harea
    rw [List.length_append, codePath_add] at harea
    obtain ⟨hfirst, hmore⟩ := (m'.holds_append _ _ _ _).mp hcode
    have hr := hrs r List.mem_cons_self
    obtain ⟨hstack, hpage', hstatus, hpointer, -, -⟩ := each_effect hr p m
    obtain ⟨m₁, hstep, htraffic, hmemory, hkeeps⟩ :=
      single_agrees hr pc status hpage hfirst hagree fun a ha => hcells a (List.mem_append_left _ ha)
    let q := (((multiple.each r).run p).run m).1.2
    have hlength : (multiple.single r).length = 2 := by cases multiple <;> rfl
    rw [hlength] at harea hmore
    have hcode' : m₁.Holds q.codePage (pc + 2) (rs.flatMap multiple.single) := by
      rw [hpage']
      exact hmore.congr fun a ha => hkeeps a (harea (List.mem_append_right _ ha))
    obtain ⟨pc', status', hrun, hkept, hmasked, hcarry, hrest, hfinal⟩ :=
      ih (fun r' hr' => hrs r' (List.mem_cons_of_mem _ hr')) (pc + 2) (status.withResult (q.long r) .word)
        (hstack.trans hpage) hcode' (fun a ha => harea (List.mem_append_right _ (hpage' ▸ ha))) hmemory
        (fun a ha => hcells a (List.mem_append_right (multiple.cells _ 1) (hpointer ▸ ha)))
    have hbulk : bulk.run m = _ := Dialogue.run_bind ((multiple.each r).run p) _ m
    have hbulk' : bulk.transcript m = _ := transcript_bind ((multiple.each r).run p) _ m
    obtain ⟨hsingles, hsingles'⟩ : singles.run m' = _ ∧ singles.transcript m' = _ :=
      Instruction.steps_succ rs.length hstep
    refine ⟨pc', status', ?_, ?_, ?_, ?_, ?_, ?_⟩
    · rw [hsingles, hbulk]
      exact hrun
    · rw [hbulk]
      exact hkept.trans hstatus
    · rw [hmasked, Status.masked_withResult]
    · rw [hcarry, Status.carry_withResult]
    · rw [hsingles', hbulk', traffic_append, traffic_append, htraffic]
      exact congrArg _ hrest
    · rw [hsingles, hbulk]
      exact hfinal

def codeArea (multiple : Multiple) (list : Byte) (p : Processor) : List Address :=
  codePath p.codePage p.pc 2 ++ codePath p.codePage p.pc (multiple.singles list).length

theorem agrees_with_singles (multiple : Multiple) (list : Byte) (p : Processor) (m m' : Memory)
    (hpage : p.stackPage = 0) (hlist : multiple = restore → list.getLsbD 7 = false)
    (hbulk : m.Holds p.codePage p.pc (multiple.code list)) (hsingles : m'.Holds p.codePage p.pc (multiple.singles list))
    (hagree : AgreeOutside (multiple.codeArea list p) m m')
    (hcells : ∀ a ∈ multiple.cells (p.reg stackPointer) (registerList list).length, a ∉ multiple.codeArea list p) :
    let bulk := step.run p
    let singles := (steps (registerList list).length).run p
    let q := (bulk.run m).1.2
    let q' := (singles.run m').1.2
    (bulk.run m).1.1 = .ok () ∧ (singles.run m').1.1 = .ok () ∧
      q' = { q with pc := q'.pc, status := q'.status } ∧ q'.status.masked = q.status.masked ∧
        q'.status.get .carry = q.status.get .carry ∧
          traffic (bulk.transcript m) = traffic (singles.transcript m') ∧
            AgreeOutside (multiple.codeArea list p) (bulk.run m).2 (singles.run m').2 := by
  intro bulk singles q q'
  have hlength : (registerList list).length = (multiple.order list).length := by
    cases multiple with
    | save => exact List.length_reverse.symm
    | restore => rfl
  have hmoves : ∀ r ∈ multiple.order list, multiple.Moves r := by
    rintro r hr rfl rfl
    have hbit : list.getLsbD 7 = true := (List.mem_filter.mp hr).2
    rw [hlist rfl] at hbit
    exact Bool.false_ne_true hbit
  let start : Processor := { p with pc := p.pc + 2 }
  let moved := ((multiple.order list).forM multiple.each).run start
  have htakes := multiple.bulk_takes list p
  have hrun : bulk.run m = ((.ok (), (moved.run m).1.2), (moved.run m).2) :=
    (htakes.run_eq hbulk).trans (run_completed _ m)
  have htraffic : traffic (bulk.transcript m) = traffic (moved.transcript m) :=
    (htakes.traffic_eq hbulk).trans (congrArg traffic (transcript_completed _ m))
  obtain ⟨pc', status', hrun', hstatus, hmasked, hcarry, htraffic', hmemory⟩ :=
    singles_agree hmoves p.pc p.status (show start.stackPage = 0 from hpage) hsingles (List.subset_append_right _ _)
      hagree (hlength ▸ hcells)
  rw [← hlength] at hrun' htraffic' hmemory
  have hq : q = (moved.run m).1.2 := congrArg (·.1.2) hrun
  have hq' : q' = { q with pc := pc', status := status' } := hq ▸ congrArg Prod.snd hrun'
  have hstatus' : q.status = p.status := hq ▸ hstatus
  refine ⟨congrArg (·.1.1) hrun, congrArg Prod.fst hrun', ?_, ?_, ?_, htraffic.trans htraffic', ?_⟩
  · rw [hq']
  · rw [hq', hstatus']
    exact hmasked
  · rw [hq', hstatus']
    exact hcarry
  · rw [hrun]
    exact hmemory

theorem agrees_with_singles_stack_pointer :
    let p := (Processor.new.setReg 0 0x1234).setReg stackPointer 0x8001
    let m := ((filled 0).write 0 0x12).write 1 0x81
    let m' := ((((filled 0).write 0 0xBF).write 1 0x97).write 2 0xBF).write 3 0x90
    p.stackPage = 0 ∧ (save = restore → (0x81 : Byte).getLsbD 7 = false) ∧
      m.Holds p.codePage p.pc (save.code 0x81) ∧ m'.Holds p.codePage p.pc (save.singles 0x81) ∧
        AgreeOutside (save.codeArea 0x81 p) m m' ∧
          (∀ a ∈ save.cells (p.reg stackPointer) (registerList 0x81).length, a ∉ save.codeArea 0x81 p) ∧
            traffic (((steps (registerList 0x81).length).run p).transcript m') =
              [.notify (.fault .addressError), .write 0x7FFE 0x7F, .write 0x7FFF 0xFF,
                .notify (.fault .addressError), .write 0x7FFC 0x12, .write 0x7FFD 0x34] := by
  intro p m m'
  have hbulk : m.Holds p.codePage p.pc (save.code 0x81) := by decide
  have hsingles : m'.Holds p.codePage p.pc (save.singles 0x81) := by decide
  have harea : save.codeArea 0x81 p = [0, 1, 0, 1, 2, 3] := by decide
  have hagree : AgreeOutside (save.codeArea 0x81 p) m m' := by
    intro a ha
    rw [harea] at ha
    simp only [List.mem_cons, List.not_mem_nil, or_false, not_or] at ha
    obtain ⟨h₀, h₁, -, -, h₂, h₃⟩ := ha
    simp only [m, m', read_write, h₀, h₁, h₂, h₃, if_false]
  have hcells : ∀ a ∈ save.cells (p.reg stackPointer) (registerList 0x81).length, a ∉ save.codeArea 0x81 p := by
    have hlist : save.cells (p.reg stackPointer) (registerList 0x81).length = [0x7FFE, 0x7FFF, 0x7FFC, 0x7FFD] := by
      decide
    intro a ha
    rw [hlist] at ha
    rw [harea]
    simp only [List.mem_cons, List.not_mem_nil, or_false] at ha
    rcases ha with rfl | rfl | rfl | rfl <;> decide
  obtain ⟨-, -, -, -, -, htraffic, -⟩ :=
    save.agrees_with_singles 0x81 p m m' rfl nofun hbulk hsingles hagree hcells
  exact ⟨rfl, nofun, hbulk, hsingles, hagree, hcells, htraffic.symm.trans (by decide +kernel)⟩

end Multiple

end Microcontroller
