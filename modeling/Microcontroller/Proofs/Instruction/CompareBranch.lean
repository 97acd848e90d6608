import Microcontroller.Memory
import Microcontroller.Proofs.Arithmetic.Comparison
import Microcontroller.Proofs.Instruction.EncodingAgreement
import Microcontroller.Proofs.Instruction.References
import Microcontroller.Proofs.Processor.StatusFlags

namespace Microcontroller

open Arithmetic Dialogue Routine
open Instruction (step operationCode)
open Twin (withRegister withSize wordCode)

theorem Size.cut_displacement (size : Size) (data : Byte) :
    size.cut ((displacement data).setWidth 32) = data.signExtend size.bits := by
  have hbits : size.bits ≤ 16 := by cases size <;> decide
  apply BitVec.eq_of_getLsbD_eq
  intro i hi
  have hword : i < 16 := Nat.lt_of_lt_of_le hi hbits
  simp [cut, displacement, BitVec.getElem_signExtend, hi, hword]

namespace Operand

variable {σ : Type} [Host σ] (operand : Operand) (r : Register) (p : Processor) (host : σ)

theorem codes_subtract (x y : Long) (size : Size) :
    (subtract x y false size).codes = differenceCodes (size.cut x) (size.cut y) :=
  calculates_subtract.codes_eq x y false size

theorem run_compare :
    (((operand.compare r).run p).run host).1 =
        ((), p.updateStatus (·.withCodes
          (differenceCodes (operand.size.cut (p.long r)) (operand.size.cut (operand.value p host))))) ∧
      ((operand.compare r).run p).transcript host = (operand.read.run p).transcript host := by
  rw [compare, Routine.run_bind, Dialogue.run_bind, transcript_bind, run_read, ← codes_subtract]
  exact ⟨rfl, List.append_nil _⟩

theorem run_subtract :
    (((operand.accumulate subtract r).run p).run host).1.2.status =
        p.status.withCodes (differenceCodes (operand.size.cut (p.long r)) (operand.size.cut (operand.value p host))) ∧
      ((operand.accumulate subtract r).run p).transcript host = (operand.read.run p).transcript host := by
  rw [run_accumulate, Processor.status_store, accumulate, Routine.run_bind, transcript_bind, run_read, codes_subtract]
  exact ⟨rfl, List.append_nil _⟩

def compareFetched (fetchNumber : Routine Word) : Routine Unit := do
  let value ← operand.read
  operand.compareWith value (← fetchNumber)

theorem run_compareFetched {fetchNumber : Routine Word} {code : List Byte} {data : Word}
    (hfetch : Takes p.codePage p.pc code (fetchNumber.run p)
      (.done (data, { p with pc := p.pc + BitVec.ofNat 16 code.length })))
    (hread : codeBytes ((operand.read.run p).transcript host) = [])
    (hcode : codeBytes (((operand.compareFetched fetchNumber).run p).transcript host) = code) :
    (((operand.compareFetched fetchNumber).run p).run host).1 =
        ((), ({ p with pc := p.pc + BitVec.ofNat 16 code.length } : Processor).updateStatus (·.withCodes
          (differenceCodes (operand.size.cut (operand.value p host)) (operand.size.cut (data.setWidth 32))))) ∧
      traffic (((operand.compareFetched fetchNumber).run p).transcript host) =
        traffic ((operand.read.run p).transcript host) := by
  rw [compareFetched, Routine.run_bind, transcript_bind, run_read] at *
  -- Reading the operand takes no code, so all of the code is the number's.
  rw [codeBytes_append, hread, List.nil_append] at hcode
  have hcompare := hfetch.bind fun r => (operand.compareWith (operand.value p host) r.1).run r.2
  obtain ⟨host', hrun, -, htraffic⟩ := hcompare.exists_host _ ⟨[], (List.append_nil _).trans hcode.symm⟩
  rw [Dialogue.run_bind, run_read, ← codes_subtract]
  refine ⟨congrArg Prod.fst hrun, ?_⟩
  rw [traffic_append]
  exact (congrArg _ htraffic).trans (List.append_nil _)

end Operand

theorem GeneralForm.execute_compareFetched (pointer : Pointer) (size : Size) (p : Processor) (escaped : Bool) :
    let operand := (Reference.memory pointer : Reference size).operand p escaped
    execute ⟨operand, (0x04 : Byte) >>> 3, registerField 0x04⟩ = liftM (operand.compareFetched fetchDisplacement) ∧
      execute ⟨operand, (0x05 : Byte) >>> 3, registerField 0x05⟩ = liftM (operand.compareFetched fetchWord) := by
  simp only [Operand.compareFetched, Attempt.lift_bind]
  exact ⟨rfl, rfl⟩

def Condition.code : Condition → BitVec 4
  | always => 0x0
  | never => 0x1
  | higher => 0x2
  | lowerOrSame => 0x3
  | carryClear => 0x4
  | carrySet => 0x5
  | notEqual => 0x6
  | equal => 0x7
  | overflowClear => 0x8
  | overflowSet => 0x9
  | plus => 0xA
  | minus => 0xB
  | greaterOrEqual => 0xC
  | less => 0xD
  | greater => 0xE
  | lessOrEqual => 0xF

inductive Comparison (size : Size) where
  | short (r : Register) (data : BitVec size.bits)
  | register (reference : Reference size) (escaped : Bool) (r : Register)
  | byteImmediate (pointer : Pointer) (escaped : Bool) (data : Byte)
  | wordImmediate (pointer : Pointer) (escaped : Bool) (data : Word)

namespace Comparison

variable {size : Size}

def code : Comparison size → List Byte
  | short r data => withRegister (withSize 0x40 size) r :: size.code data
  | register reference escaped r => reference.encode escaped (withRegister 0x70 r)
  | byteImmediate pointer escaped data => (Reference.memory pointer : Reference size).encode escaped 0x04 ++ [data]
  | wordImmediate pointer escaped data => (Reference.memory pointer : Reference size).encode escaped 0x05 ++ wordCode data

def stepped (p : Processor) : Comparison size → Processor
  | short _ _ => p
  | register reference _ _ => reference.stepped p
  | byteImmediate pointer _ _ | wordImmediate pointer _ _ => pointer.stepped size p

def Compares (p : Processor) (calls : List Call) (x y : BitVec size.bits) : Comparison size → Prop
  | short r data => x = size.cut (p.long r) ∧ y = data ∧ traffic calls = []
  | register reference _ r => x = size.cut ((reference.stepped p).long r) ∧ reference.Supplies p calls y
  | byteImmediate pointer _ data => (Reference.memory pointer).Supplies p calls x ∧ y = data.signExtend size.bits
  | wordImmediate pointer _ data => (Reference.memory pointer).Supplies p calls x ∧ y = data.setWidth size.bits

theorem Compares.writtenAddresses_eq {comparison : Comparison size} {p : Processor} {calls : List Call}
    {x y : BitVec size.bits} (h : comparison.Compares p calls x y) : writtenAddresses calls = [] := by
  cases comparison with
  | short r data => exact (writtenAddresses_traffic calls).symm.trans (congrArg writtenAddresses h.2.2)
  | register reference escaped r => exact h.2.writtenAddresses_eq
  | byteImmediate pointer escaped data => exact h.1.writtenAddresses_eq
  | wordImmediate pointer escaped data => exact h.1.writtenAddresses_eq

theorem short_takes (r : Register) (data : BitVec size.bits) (p : Processor) :
    Takes p.codePage p.pc (short r data).code (step.run p)
      (completed ((((Reference.immediate data).operand p false).compare r).run
        { p with pc := p.pc + BitVec.ofNat 16 (short r data).code.length })) := by
  cases size with
  | byte =>
    have h := (Twin.compareByte r data).short_takes p
    rw [Twin.routine_eq _ fun _ => rfl, advance_eq] at h
    exact h
  | word =>
    have h := (Twin.compareWord r data).short_takes p
    rw [Twin.routine_eq _ fun _ => rfl, advance_eq] at h
    have hdata : (data : Word).setWidth 16 = data := BitVec.setWidth_eq _
    rw [Reference.operand, Reference.place, hdata]
    exact h

theorem register_takes (reference : Reference size) (escaped : Bool) (r : Register) (p : Processor) :
    Takes p.codePage p.pc (register reference escaped r).code (step.run p)
      (completed (((reference.operand p escaped).compare r).run
        { reference.stepped p with pc := p.pc + BitVec.ofNat 16 (register reference escaped r).code.length })) := by
  obtain ⟨hcode, hindex, hr⟩ := Twin.code_fields 0x70 (by decide) r
  apply reference.step_takes p hcode
  rw [hindex, hr]
  exact GeneralForm.execute_compare _ r

section Result

variable {σ : Type} [Host σ] {p : Processor} {host : σ}

theorem compare_result (reference : Reference size) (escaped : Bool) (r : Register) {code : List Byte} {pc : Word}
    (htakes : Takes p.codePage p.pc code (step.run p)
      (completed (((reference.operand p escaped).compare r).run { reference.stepped p with pc := pc })))
    (hcode : codeBytes ((step.run p).transcript host) = code) :
    ∃ y, reference.Supplies p ((step.run p).transcript host) y ∧
      ((step.run p).run host).1 = (.ok (), { reference.stepped p with
        pc := pc
        status := p.status.withCodes (differenceCodes (size.cut ((reference.stepped p).long r)) y) }) := by
  obtain ⟨host', hrun, -, htraffic⟩ := htakes.exists_host host ⟨[], (List.append_nil _).trans hcode.symm⟩
  obtain ⟨-, hsupplies⟩ := Reference.read_supplies host' reference p escaped pc
  obtain ⟨hcompare, hcalls⟩ := (reference.operand p escaped).run_compare r { reference.stepped p with pc := pc } host'
  rw [transcript_completed, hcalls] at htraffic
  refine ⟨_, hsupplies.congr htraffic, ?_⟩
  rw [hrun, run_completed, hcompare, ← reference.status_stepped p]
  rfl

theorem fetched_result (pointer : Pointer) (escaped : Bool) {fetchNumber : Routine Word} {code more : List Byte}
    {data : Word}
    (htakes : Takes p.codePage p.pc code (step.run p)
      (completed ((((Reference.memory pointer : Reference size).operand p escaped).compareFetched fetchNumber).run
        { pointer.stepped size p with pc := p.pc + BitVec.ofNat 16 code.length })))
    (hfetch : ∀ q : Processor, Takes q.codePage q.pc more (fetchNumber.run q)
      (.done (data, { q with pc := q.pc + BitVec.ofNat 16 more.length })))
    (hcode : codeBytes ((step.run p).transcript host) = code ++ more) :
    ∃ x, (Reference.memory pointer : Reference size).Supplies p ((step.run p).transcript host) x ∧
      ((step.run p).run host).1 = (.ok (), { pointer.stepped size p with
        pc := p.pc + BitVec.ofNat 16 (code ++ more).length
        status := p.status.withCodes (differenceCodes x (size.cut (data.setWidth 32))) }) := by
  let q : Processor := { pointer.stepped size p with pc := p.pc + BitVec.ofNat 16 code.length }
  obtain ⟨host', hrun, hbytes, htraffic⟩ := htakes.exists_host host ⟨more, hcode.symm⟩
  rw [transcript_completed] at hbytes htraffic
  obtain ⟨hread, hsupplies⟩ := Reference.read_supplies host' (.memory pointer : Reference size) p escaped q.pc
  obtain ⟨hcompare, hcalls⟩ := Operand.run_compareFetched _ q host' (hfetch q) hread
    (List.append_cancel_left (hbytes.symm.trans hcode))
  refine ⟨_, hsupplies.congr (htraffic.trans hcalls), ?_⟩
  rw [hrun, run_completed, hcompare, ← Reference.status_stepped (.memory pointer : Reference size) p, List.length_append,
    BitVec.ofNat_add, ← BitVec.add_assoc]
  rfl

theorem step_result (comparison : Comparison size) (hcode : codeBytes ((step.run p).transcript host) = comparison.code) :
    ∃ x y, comparison.Compares p ((step.run p).transcript host) x y ∧
      ((step.run p).run host).1 = (.ok (), { comparison.stepped p with
        pc := p.pc + BitVec.ofNat 16 comparison.code.length
        status := p.status.withCodes (differenceCodes x y) }) := by
  cases comparison with
  | short r data =>
    obtain ⟨y, ⟨htraffic, rfl⟩, hrun⟩ := compare_result (.immediate data) false r (short_takes r data p) hcode
    exact ⟨_, _, ⟨rfl, rfl, htraffic⟩, hrun⟩
  | register reference escaped r =>
    obtain ⟨y, hsupplies, hrun⟩ := compare_result reference escaped r (register_takes reference escaped r p) hcode
    exact ⟨_, _, ⟨rfl, hsupplies⟩, hrun⟩
  | byteImmediate pointer escaped data =>
    have hexecute := (GeneralForm.execute_compareFetched pointer size p escaped).1
    have hfetch (q : Processor) : Takes q.codePage q.pc [data] (fetchDisplacement.run q)
        (.done (displacement data, { q with pc := q.pc + 1 })) := ⟨_, rfl, rfl⟩
    obtain ⟨x, hsupplies, hrun⟩ := fetched_result pointer escaped
      (Reference.step_takes (.memory pointer) p (by decide) hexecute) hfetch hcode
    exact ⟨_, _, ⟨hsupplies, size.cut_displacement data⟩, hrun⟩
  | wordImmediate pointer escaped data =>
    have hexecute := (GeneralForm.execute_compareFetched pointer size p escaped).2
    have hfetch (q : Processor) : Takes q.codePage q.pc (wordCode data) (fetchWord.run q)
        (.done (data, { q with pc := q.pc + 2 })) :=
      BitVec.add_assoc q.pc 1 1 ▸ fetchWord_takes q data
    obtain ⟨x, hsupplies, hrun⟩ := fetched_result pointer escaped
      (Reference.step_takes (.memory pointer) p (by decide) hexecute) hfetch hcode
    have hbits : size.bits ≤ 32 := by cases size <;> decide
    exact ⟨_, _, ⟨hsupplies, BitVec.setWidth_setWidth_of_le _ hbits⟩, hrun⟩

end Result

end Comparison

theorem Condition.byCode_code (condition : Condition) : Condition.byCode[condition.code.toNat] = condition := by
  cases condition <;> rfl

inductive Branch where
  | short (condition : Condition) (offset : Byte)
  | long (condition : Condition) (offset : Word)
  deriving DecidableEq

namespace Branch

def condition : Branch → Condition
  | short condition _ | long condition _ => condition

def displacement : Branch → Word
  | short _ offset => offset.signExtend 16
  | long _ offset => offset

def code : Branch → List Byte
  | short condition offset => [0x2#4 ++ condition.code, offset]
  | long condition offset => (0x3#4 ++ condition.code) :: wordCode offset

theorem step_takes (branch : Branch) (p : Processor) :
    Takes p.codePage p.pc branch.code (step.run p) (.done (.ok (), { p with
      pc := p.pc + BitVec.ofNat 16 branch.code.length +
        if branch.condition.holds p.status.codes then branch.displacement else 0 })) := by
  cases branch with
  | short condition offset =>
    have h := (Twin.branch condition.code offset).short_step p
    rw [Twin.stepFrom, Twin.displacement, condition.byCode_code] at h
    exact h
  | long condition offset =>
    have hform : Form.ofByte (0x3#4 ++ condition.code) = .branch := by cases condition <;> decide
    have hcondition : Condition.ofByte (0x3#4 ++ condition.code) = condition := by cases condition <;> decide
    have hlong : (0x3#4 ++ condition.code).getLsbD 4 = true := by cases condition <;> decide
    have hbranch (q : Processor) :
        (do if condition.holds (← get).status.codes then Routine.branch offset : Routine Unit).run q =
          .done ((), { q with pc := q.pc + if condition.holds q.status.codes then offset else 0 }) := by
      rw [Routine.run_bind, Routine.run_get, done_bind]
      split
      · rfl
      · exact congrArg (fun pc => Dialogue.done ((), { q with pc := pc })) (BitVec.add_zero q.pc).symm
    rw [← advance_eq]
    apply Instruction.step_takes (y := .done ((), _)) rfl
    rw [hform, Form.execute, Instruction.branchConditionally, hcondition, hlong, run_liftM]
    apply Takes.bind
    exact (fetchWord_takes { p with pc := p.pc + 1 } offset).bind_eq (hbranch _)

end Branch

section

variable {σ : Type} [Host σ] {size : Size}

theorem subtract_result (reference : Reference size) (escaped : Bool) (r : Register) (p : Processor) (host : σ)
    (hcode : codeBytes ((step.run p).transcript host) = reference.encode escaped (withRegister 0x30 r)) :
    ∃ y, reference.Supplies p ((step.run p).transcript host) y ∧ ((step.run p).run host).1.1 = .ok () ∧
      ((step.run p).run host).1.2.status.codes = differenceCodes (size.cut ((reference.stepped p).long r)) y := by
  obtain ⟨hne, hindex, hr⟩ := Twin.code_fields 0x30 (by decide) r
  have hexecute : GeneralForm.execute
      ⟨reference.operand p escaped, withRegister 0x30 r >>> 3, registerField (withRegister 0x30 r)⟩ =
        liftM ((reference.operand p escaped).accumulate subtract r) := by
    rw [hindex, hr]
    rfl
  obtain ⟨host', hrun, -, htraffic⟩ :=
    (reference.step_takes p hne hexecute).exists_host host ⟨[], (List.append_nil _).trans hcode.symm⟩
  obtain ⟨-, hsupplies⟩ := Reference.read_supplies host' reference p escaped
    (p.pc + BitVec.ofNat 16 (reference.encode escaped (withRegister 0x30 r)).length)
  obtain ⟨hstatus, hcalls⟩ := (reference.operand p escaped).run_subtract r { reference.stepped p with pc := _ } host'
  rw [transcript_completed, hcalls] at htraffic
  refine ⟨_, hsupplies.congr htraffic, ?_, ?_⟩
  · rw [hrun, run_completed]
  · rw [hrun, run_completed, hstatus, Status.codes_withCodes]
    rfl

theorem compare_then_branch (comparison : Comparison size) (branch : Branch) (p : Processor) (host : σ) :
    let calls := (step.run p).transcript host
    let result := (step.run p).run host
    let q := result.1.2
    let next := (step.run q).run result.2
    codeBytes calls = comparison.code → codeBytes ((step.run q).transcript result.2) = branch.code →
      ∃ x y, comparison.Compares p calls x y ∧ result.1.1 = .ok () ∧
        q = { comparison.stepped p with pc := p.pc + BitVec.ofNat 16 comparison.code.length, status := q.status } ∧
        q.status.masked = p.status.masked ∧ writtenAddresses calls = [] ∧
        next.1.1 = .ok () ∧
        next.1.2 = { q with pc := next.1.2.pc } ∧
        (branch.condition.Relates x y →
          next.1.2.pc = q.pc + BitVec.ofNat 16 branch.code.length + branch.displacement) ∧
        (¬branch.condition.Relates x y → next.1.2.pc = q.pc + BitVec.ofNat 16 branch.code.length) ∧
        ∀ (reference : Reference size) (escaped : Bool) (r : Register) (p' : Processor) (host' : σ),
          let calls' := (step.run p').transcript host'
          let result' := (step.run p').run host'
          codeBytes calls' = reference.encode escaped (withRegister 0x30 r) →
            size.cut ((reference.stepped p').long r) = x → reference.Supplies p' calls' y →
              result'.1.1 = .ok () ∧ result'.1.2.status.codes = q.status.codes := by
  intro calls result q next hcompare hbranch
  obtain ⟨x, y, hcompares, hresult⟩ := comparison.step_result hcompare
  have hq : q = { comparison.stepped p with
      pc := p.pc + BitVec.ofNat 16 comparison.code.length
      status := p.status.withCodes (differenceCodes x y) } := congrArg Prod.snd hresult
  have hcodes : q.status.codes = differenceCodes x y := hq ▸ Status.codes_withCodes _ _
  have hmasked : q.status.masked = p.status.masked := hq ▸ Status.masked_withCodes _ _
  have hrelates := holds_differenceCodes x y size.bits_pos branch.condition
  rw [← hcodes] at hrelates
  obtain ⟨host', hnext, -, -⟩ :=
    (branch.step_takes q).exists_host result.2 ⟨[], (List.append_nil _).trans hbranch.symm⟩
  have hafter : next.1 = (.ok (), { q with
      pc := q.pc + BitVec.ofNat 16 branch.code.length +
        if branch.condition.holds q.status.codes then branch.displacement else 0 }) := congrArg Prod.fst hnext
  refine ⟨x, y, hcompares, congrArg Prod.fst hresult, ?_, hmasked, ?_, congrArg Prod.fst hafter, ?_, ?_, ?_, ?_⟩
  · rw [hq]
  · exact hcompares.writtenAddresses_eq
  · rw [hafter]
  · intro h
    rw [hafter, if_pos (hrelates.mpr h)]
  · intro h
    rw [hafter, if_neg (mt hrelates.mp h)]
    exact BitVec.add_zero _
  · intro reference escaped r p' host' calls' result' hsubtract hx hy
    obtain ⟨y', hsupplies, hok, hstatus⟩ := subtract_result reference escaped r p' host' hsubtract
    rw [hx, hsupplies.unique hy, ← hcodes] at hstatus
    exact ⟨hok, hstatus⟩

theorem compare_then_branch_overflow :
    let p : Processor := { Processor.new.setReg 3 0x4002 with dataPage := 1 }
    let m := ((Memory.filled 0).store 0 #[0xBB, 0x04, 0x80, 0x3E, 0x01, 0x00]).store 0x014000 #[0x7F, 0xFF]
    let comparison : Comparison .word := .byteImmediate (.preDecrement 3) false 0x80
    let branch : Branch := .long .greater 0x0100
    let result := (step.run p).run m
    codeBytes ((step.run p).transcript m) = comparison.code ∧
      codeBytes ((step.run result.1.2).transcript result.2) = branch.code ∧
        ((step.run result.1.2).run result.2).1.2.pc = 0x0106 := by
  intro p m comparison branch
  let q := ((step.run p).run m).1.2
  let m' := ((step.run p).run m).2
  have hcompare : codeBytes ((step.run p).transcript m) = comparison.code := by decide +kernel
  have hbranch : codeBytes ((step.run q).transcript m') = branch.code := by decide +kernel
  have hpc : q.pc + BitVec.ofNat 16 branch.code.length + branch.displacement = 0x0106 := by decide +kernel
  obtain ⟨x, y, ⟨hx, hy⟩, -, -, -, -, -, -, htaken, -, -⟩ :=
    compare_then_branch comparison branch p m hcompare hbranch
  have hsupplied : (Reference.memory (.preDecrement 3) : Reference .word).Supplies p ((step.run p).transcript m)
      0x7FFF := by
    unfold Reference.Supplies
    decide +kernel
  have hrelates : branch.condition.Relates x y := by
    rw [hx.unique hsupplied, hy]
    exact (by decide : (0xFF80 : Word).toInt < (0x7FFF : Word).toInt)
  exact ⟨hcompare, hbranch, (htaken hrelates).trans hpc⟩

end

end Microcontroller
