import Microcontroller.Proofs.Instruction.Lengths
import Microcontroller.Proofs.Instruction.OperationTraps
import Microcontroller.Proofs.Processor.StackAccess

namespace Microcontroller

open Conduct Dialogue Grammar Processor

namespace Grammar

theorem stepped_pc (p : Processor) (pc : Word) (mode : Byte) :
    stepped { p with pc := pc } mode = { stepped p mode with pc := pc } := by
  unfold stepped
  dsimp only
  split
  · rfl
  · split <;> rfl

theorem stepped_eq_self (p : Processor) {mode : Byte} (h : isMode mode = false ∨ Kind.ofMode mode = .register) :
    stepped p mode = p := by
  have hrange : ¬(0xB0 ≤ mode ∧ mode ≤ 0xBF) ∧ ¬(0xC0 ≤ mode ∧ mode ≤ 0xCF) := by decide +revert
  rw [stepped, if_neg hrange.1, if_neg hrange.2]

theorem stepped_eq (p : Processor) (mode : Byte) : stepped p mode = { p with registers := (stepped p mode).registers } := by
  unfold stepped
  dsimp only
  split
  · rfl
  · split <;> rfl

theorem verdict?_ne_operation {p : Processor} {data rest : List Byte} {first : Byte} {trap : Trap}
    (h : verdict? p data (first :: rest) = some (.error trap)) (hmode : isMode first = false) :
    trap ≠ .divideByZero ∧ (∀ index sub, trap ≠ .invalidOperand index sub) ∧
      ∀ index size, trap ≠ .controlRegister index size := by
  rw [verdict?] at h
  split at h
  · cases verdict_eq_error (Option.some.inj h)
    simp
  · split at h
    · obtain ⟨second, -, hsecond⟩ := Option.map_eq_some_iff.mp h
      have hrefused := verdict_eq_error hsecond
      split at hrefused <;> cases hrefused
      simp
    · split at h
      · obtain ⟨count, -, hcount⟩ := Option.map_eq_some_iff.mp h
        have hrefused := verdict_eq_error hcount
        split at hrefused <;> cases hrefused
        simp
      · rw [hmode, if_neg Bool.false_ne_true] at h
        cases Option.some.inj h

end Grammar

/-- What a trap leaves behind, by the code bytes that were taken and the calls that were made. -/
structure Aftermath (p : Processor) (first : Byte) (rest : List Byte) (calls : List Call) (trap : Trap) (q : Processor) :
    Prop where
  others : q = { p with registers := q.registers, pc := q.pc, status := q.status }
  advanced : first ≠ 0x14 → first ≠ 0x1C →
    q.pc = p.pc + BitVec.ofNat 16 (first :: rest).length ∧ q.registers = (stepped p first).registers
  returned : first = 0x14 ∨ first = 0x1C →
    ∃ high low, loads calls = [(address 0 (p.reg stackPointer &&& 0xFFFE), high),
        (address 0 ((p.reg stackPointer &&& 0xFFFE) + 1), low)] ∧
      q.pc = wordOf high low ∧ ∀ r, r ≠ stackPointer → q.reg r = p.reg r
  kept : trap ≠ .divideByZero → (∀ sub, trap ≠ .invalidOperand 1 sub) → q.status = p.status
  divided : trap = .divideByZero →
    q.status = p.status.withCodes { negative := false, zero := true, overflow := false, carry := false }
  added : ∀ sub, trap = .invalidOperand 1 sub →
    ∃ value : Long, operandValue? p (dataBytes calls) first (rest.take (extension first)) = some value.toNat ∧
      q.status = p.status.withCodes
        { negative := ((Size.field first).cut value).msb
          zero := decide ((Size.field first).cut value = 0)
          overflow := false
          carry := false } ∧
        WritesBack calls
  silent : (∀ sub, trap ≠ .invalidOperand 1 sub) ∨ Kind.ofMode first ≠ .memory → stores calls = []
  control : ∀ index size, trap = .controlRegister index size →
    q = { stepped p first with pc := q.pc } ∧ stores calls = []

namespace Aftermath

variable {p q : Processor} {first : Byte} {rest : List Byte} {calls : List Call} {trap : Trap}

theorem extend {before after : List Call} (h : Aftermath p first rest calls trap q) (hbefore : Silent before)
    (hafter : Silent after) : Aftermath p first rest (before ++ calls ++ after) trap q := by
  have hloads := hbefore.append_loads hafter calls
  have hstores := hbefore.append_stores hafter calls
  have hdata : dataBytes (before ++ calls ++ after) = dataBytes calls := by
    rw [dataBytes_eq_loads, dataBytes_eq_loads, hloads]
  refine ⟨h.others, h.advanced, ?_, h.kept, h.divided, ?_, ?_, ?_⟩
  · rw [hloads]
    exact h.returned
  · intro sub htrap
    obtain ⟨value, hvalue, hstatus, hback⟩ := h.added sub htrap
    rw [hdata]
    exact ⟨value, hvalue, hstatus, hback.extend hbefore hafter⟩
  · rw [hstores]
    exact h.silent
  · rw [hstores]
    exact h.control

theorem memory_eq {α : Type} {x : Dialogue α} {m : Memory} (h : Aftermath p first rest (x.transcript m) trap q) :
    (x.run m).2 = m := by
  by_cases hadd : ∃ sub, trap = .invalidOperand 1 sub
  · obtain ⟨sub, htrap⟩ := hadd
    obtain ⟨value, -, -, hback⟩ := h.added sub htrap
    exact hback.run_eq
  · rw [x.run_stores, h.silent (.inl (not_exists.mp hadd))]
    rfl

end Aftermath

theorem GeneralForm.Decoded.aftermath {mode code : Byte} {p q q' : Processor} {calls more : List Call} {form : GeneralForm}
    {bytes : List Byte} {trap : Trap} (hdecoded : Decoded mode { p with pc := p.pc + 1 } calls form q bytes code)
    (htrap : form.operand.Trapped q more trap q') (hstraight : Straight { p with pc := p.pc + 1 } (calls ++ more) q')
    (hmode : isMode mode = true) : Aftermath p mode (codeBytes (calls ++ more)) (calls ++ more) trap q' := by
  have hsilent := silent_of_traffic hdecoded.silent
  have hstores : stores (calls ++ more) = stores more := by rw [stores_append, hsilent.2, List.nil_append]
  have hreturn : ¬(mode = 0x14 ∨ mode = 0x1C) := by
    rintro (rfl | rfl) <;> cases hmode
  have hpc : q'.pc = p.pc + BitVec.ofNat 16 (mode :: codeBytes (calls ++ more)).length :=
    hstraight.pc_eq.trans (add_one_add_ofNat ..)
  have hdecoding : q = { stepped p mode with pc := q.pc } := by
    have h := hdecoded.processor
    rwa [stepped_pc] at h
  obtain ⟨pc, rfl⟩ : ∃ pc, q = { p with registers := (stepped p mode).registers, pc := pc } :=
    ⟨q.pc, by rwa [stepped_eq] at hdecoding⟩
  obtain ⟨status, rfl⟩ : ∃ status, q' = { p with registers := (stepped p mode).registers, pc := pc, status := status } :=
    ⟨q'.status, htrap.processor_eq⟩
  refine ⟨rfl, fun _ _ => ⟨hpc, rfl⟩, fun h => absurd h hreturn, ?_, ?_, ?_, ?_, ?_⟩
  · intro hdivide hadd
    have hstatus := congrArg Processor.status (htrap.kept hdivide hadd)
    exact hstatus
  · intro hdivide
    have hstatus := congrArg Processor.status (htrap.divided hdivide)
    exact hstatus
  · intro sub hadd
    obtain ⟨value, hvalue, hprocessor, hback⟩ := htrap.added sub hadd
    have hstatus := congrArg Processor.status hprocessor
    rw [form.operand.size.isNegative_eq, form.operand.size.isZero_eq_cut] at hstatus
    rw [hdecoded.value] at hvalue
    rw [codeBytes_append, hdecoded.codeBytes_eq, List.append_assoc, ← hdecoded.length_bytes, List.take_left,
      dataBytes_append, hsilent.dataBytes_eq, List.nil_append, ← hdecoded.size, ← List.append_nil (calls ++ more)]
    exact ⟨value, hvalue, hstatus, hback.extend hsilent ⟨rfl, rfl⟩⟩
  · rw [hstores, ← hdecoded.kind]
    exact htrap.silent
  · rintro index size rfl
    have hkept := htrap.kept nofun fun _ => nofun
    exact ⟨hkept.trans hdecoding, hstores.trans (htrap.silent (.inl fun _ => nofun))⟩

namespace Conduct

def Stays : Conduct := fun p calls q => Straight p calls q ∧ q = { p with pc := q.pc } ∧ stores calls = []

instance : Composable Stays where
  refl p := ⟨Composable.refl p, rfl, rfl⟩
  trans h h' := by
    refine ⟨Composable.trans h.1 h'.1, ?_, by rw [stores_append, h.2.2, h'.2.2, List.append_nil]⟩
    rw [h'.2.1, h.2.1]

instance : Fetching Stays := ⟨fun p byte => ⟨Fetching.fetch p byte, rfl, rfl⟩⟩

end Conduct

namespace Instruction

open Attempt Routine

instance (byte : Byte) : (jumpIndirect byte).Traps Stays := by
  unfold jumpIndirect
  refine Traps.bind inferInstance fun second => ?_
  dsimp only
  split
  · infer_instance
  · split <;> infer_instance

theorem returnFromCall_pops (p : Processor) :
    (returnFromCall.run p).Ensures fun calls r => stores calls = [] ∧ ∃ high low,
      loads calls = [(address 0 (p.reg stackPointer &&& 0xFFFE), high),
        (address 0 ((p.reg stackPointer &&& 0xFFFE) + 1), low)] ∧
      r.2 = { p.setReg stackPointer (p.reg stackPointer + 2) with pc := wordOf high low } := by
  unfold returnFromCall
  rw [Routine.run_bind, run_pop, evenAddress_address, oddAddress_address, warned_bind, warned]
  split <;> exact fun high low => ⟨rfl, high, low, rfl, rfl⟩

theorem returnAndDrop_pops (byte : Byte) (p : Processor) :
    ((returnAndDrop byte).run p).Ensures fun calls r => stores calls = [] ∧ ∃ high low,
      loads calls = [(address 0 (p.reg stackPointer &&& 0xFFFE), high),
        (address 0 ((p.reg stackPointer &&& 0xFFFE) + 1), low)] ∧
      ∃ top, r.2 = { p.setReg stackPointer top with pc := wordOf high low } := by
  unfold returnAndDrop
  rw [Attempt.run_bind, Attempt.run_lift, run_fetchDisplacement]
  intro count
  simp only [Attempt.run_bind, Attempt.run_lift, Dialogue.bind_assoc, done_bind, ensures_bind]
  apply (returnFromCall_pops _).mono
  rintro calls ⟨_, q⟩ ⟨hstores, high, low, hloads, hq⟩
  -- What is left to do makes no calls.
  refine Ensures.mono (?_ : Ensures _ fun more r => more = [] ∧ ∃ top, r.2 = q.setReg stackPointer top) ?_
  · split
    · simp only [Attempt.run_bind, Attempt.run_lift, Attempt.run_get, run_setReg, done_bind]
      split <;> exact ⟨rfl, _, rfl⟩
    · exact ⟨rfl, q.reg stackPointer, (q.setReg_reg stackPointer).symm⟩
  · rintro more r ⟨rfl, top, htop⟩
    rw [List.append_nil]
    have hpopped : q = { p.setReg stackPointer (p.reg stackPointer + 2) with pc := wordOf high low } := hq
    refine ⟨hstores, high, low, hloads, top, htop.trans ?_⟩
    rw [hpopped, ← p.setReg_setReg stackPointer (p.reg stackPointer + 2) top]
    rfl

theorem execute_traps {form : Form} (hgeneral : form ≠ .general) (hreturn : form ≠ .returnAndDrop) (byte : Byte) :
    (form.execute byte).Traps Stays := by
  cases form
  case general => exact absurd rfl hgeneral
  case returnAndDrop => exact absurd rfl hreturn
  case jumpGroup =>
    dsimp only [Form.execute]
    unfold jumpGroup countDown
    split <;> infer_instance
  all_goals
    dsimp only [Form.execute, softwareTrap]
    infer_instance

theorem general_aftermath (mode : Byte) (p : Processor) (hmode : isMode mode = true) :
    ((Form.execute .general mode).run { p with pc := p.pc + 1 }).Ensures fun calls r =>
      ∀ trap, r.1 = .error trap → Aftermath p mode (codeBytes calls) calls trap r.2 := by
  have hkeeps : (Form.execute .general mode).Keeps Straight := by
    unfold Form.execute
    infer_instance
  have hstraight := hkeeps.ensures { p with pc := p.pc + 1 }
  rw [ensures_general] at hstraight ⊢
  apply (hstraight.and (GeneralForm.decode_ensures mode { p with pc := p.pc + 1 } hmode)).mono
  rintro calls ⟨form, q⟩ ⟨hstraight, bytes, code, hdecoded⟩
  apply (hstraight.and (form.execute_trapped code q hdecoded.index hdecoded.sub)).mono
  rintro more ⟨result, q'⟩ ⟨hstraight, htrapped⟩ trap ⟨rfl⟩
  exact hdecoded.aftermath (htrapped trap rfl) hstraight hmode

theorem returnAndDrop_aftermath {first : Byte} (p : Processor) (hreturn : first = 0x14 ∨ first = 0x1C) :
    (((Form.ofByte first).execute first).run { p with pc := p.pc + 1 }).Ensures fun calls r =>
      ∀ trap, r.1 = .error trap → Aftermath p first (codeBytes calls) calls trap r.2 := by
  have hform : Form.ofByte first = .returnAndDrop ∧ isMode first = false := by decide +revert
  have hverdict := form_ensures first { p with pc := p.pc + 1 }
  rw [hform.1] at hverdict ⊢
  apply (hverdict.and (returnAndDrop_pops first { p with pc := p.pc + 1 })).mono
  rintro calls ⟨result, q⟩ ⟨hverdict, hstores, high, low, hloads, top, rfl⟩ trap ⟨rfl⟩
  obtain ⟨hdivide, hinvalid, hcontrol⟩ := verdict?_ne_operation hverdict hform.2
  have hreg (r : Register) (hr : r ≠ stackPointer) : (p.setReg stackPointer top).reg r = p.reg r :=
    (p.reg_setReg stackPointer r top).trans (if_neg hr)
  exact {
    others := rfl
    advanced := fun h₁ h₂ => absurd hreturn (not_or.mpr ⟨h₁, h₂⟩)
    returned := fun _ => ⟨high, low, hloads, rfl, hreg⟩
    kept := fun _ _ => rfl
    divided := fun h => absurd h hdivide
    added := fun sub h => absurd h (hinvalid 1 sub)
    silent := fun _ => hstores
    control := fun index size h => absurd h (hcontrol index size) }

theorem short_aftermath {first : Byte} (p : Processor) (hmode : isMode first = false)
    (hreturn : ¬(first = 0x14 ∨ first = 0x1C)) :
    (((Form.ofByte first).execute first).run { p with pc := p.pc + 1 }).Ensures fun calls r =>
      ∀ trap, r.1 = .error trap → Aftermath p first (codeBytes calls) calls trap r.2 := by
  have hform : Form.ofByte first ≠ .general ∧ Form.ofByte first ≠ .returnAndDrop := by decide +revert
  have hverdict := form_ensures first { p with pc := p.pc + 1 }
  have htraps := (execute_traps hform.1 hform.2 first).ensures { p with pc := p.pc + 1 }
  apply (hverdict.and htraps).mono
  rintro calls ⟨result, q⟩ ⟨hverdict, hstays⟩ trap ⟨rfl⟩
  obtain ⟨hdivide, hinvalid, hcontrol⟩ := verdict?_ne_operation hverdict hmode
  obtain ⟨hstraight, hprocessor, hstores⟩ := hstays trap rfl
  have hpc := hstraight.pc_eq
  have hq : q = { p with pc := q.pc } := hprocessor
  have hregisters : q.registers = (stepped p first).registers := by rw [stepped_eq_self p (.inl hmode), hq]
  have hstatus : q.status = p.status := by rw [hq]
  have hothers : q = { p with registers := q.registers, pc := q.pc, status := q.status } := by rw [hq]
  exact {
    others := hothers
    advanced := fun _ _ => ⟨hpc.trans (add_one_add_ofNat ..), hregisters⟩
    returned := fun h => absurd h hreturn
    kept := fun _ _ => hstatus
    divided := fun h => absurd h hdivide
    added := fun sub h => absurd h (hinvalid 1 sub)
    silent := fun _ => hstores
    control := fun index size h => absurd h (hcontrol index size) }

theorem form_aftermath (first : Byte) (p : Processor) :
    (((Form.ofByte first).execute first).run { p with pc := p.pc + 1 }).Ensures fun calls r =>
      ∀ trap, r.1 = .error trap → Aftermath p first (codeBytes calls) calls trap r.2 := by
  cases hmode : isMode first with
  | true =>
    rw [ofByte_of_isMode hmode]
    exact general_aftermath first p hmode
  | false =>
    by_cases hreturn : first = 0x14 ∨ first = 0x1C
    · exact returnAndDrop_aftermath p hreturn
    · exact short_aftermath p hmode hreturn

theorem step_aftermath (p : Processor) :
    (step.run p).Ensures fun calls r => ∀ trap, r.1 = .error trap →
      ∃ first rest, codeBytes calls = first :: rest ∧ Aftermath p first rest calls trap r.2 := by
  rw [ensures_step]
  intro first
  apply (form_aftermath first p).mono
  intro calls r h trap htrap
  have hannounced : Silent (announcement r) := by
    obtain ⟨result, q⟩ := r
    cases result <;> exact ⟨rfl, rfl⟩
  have hfetched : Silent [.fetch (address p.codePage p.pc) first] := ⟨rfl, rfl⟩
  exact ⟨first, codeBytes calls, codeBytes_announced _ first calls r, (h trap htrap).extend hfetched hannounced⟩

theorem trap_leaves_intact (p : Processor) :
    (∀ {σ : Type} [Host σ] (host : σ) (trap : Trap), ((step.run p).run host).1.1 = .error trap →
      let calls := (step.run p).transcript host
      ∃ first rest, codeBytes calls = first :: rest ∧
        Aftermath p first rest calls trap ((step.run p).run host).1.2) ∧
      ∀ (m : Memory) (trap : Trap), ((step.run p).run m).1.1 = .error trap → ((step.run p).run m).2 = m := by
  refine ⟨fun host trap htrap => (step_aftermath p).transcript host trap htrap, fun m trap htrap => ?_⟩
  obtain ⟨first, rest, -, h⟩ := (step_aftermath p).transcript m trap htrap
  exact h.memory_eq

theorem trap_leaves_intact_addQuick :
    let p := { Processor.new.setReg 2 0x1000 with status := ⟨0x8705⟩ }
    let m := (Memory.filled 0).store 0 #[0xBA, 0x0A] |>.store 0x0FFE #[0x80, 0x01]
    let result := (step.run p).run m
    result.1.1 = .error (.invalidOperand 1 2) ∧ result.1.2.pc = 2 ∧ result.1.2.reg 2 = 0x0FFE ∧
      result.1.2.status.bits = 0x8708 ∧ result.2 = m := by
  intro p m result
  have hcode : codeBytes ((step.run p).transcript m) = [0xBA, 0x0A] := by decide +kernel
  have hdata : dataBytes ((step.run p).transcript m) = [0x80, 0x01] := by decide +kernel
  have htrap : result.1.1 = .error (.invalidOperand 1 2) := by
    have hverdict := ((step_ensures p).transcript m).1
    rw [hcode, hdata] at hverdict
    exact (Option.some.inj hverdict).symm
  obtain ⟨first, rest, hbytes, h⟩ := (trap_leaves_intact p).1 m _ htrap
  obtain ⟨rfl, rfl⟩ := List.cons.inj (hbytes.symm.trans hcode)
  obtain ⟨hpc, hregisters⟩ := h.advanced (by decide) (by decide)
  have hreg : result.1.2.reg 2 = (stepped p 0xBA).reg 2 := congrArg (fun registers : Vector Word 8 => registers[2]) hregisters
  obtain ⟨value, hvalue, hstatus, -⟩ := h.added 2 rfl
  rw [hdata] at hvalue
  have hnumber : value = 0x8001 := BitVec.eq_of_toNat_eq (Option.some.inj hvalue).symm
  rw [hnumber] at hstatus
  exact ⟨htrap, hpc.trans (by decide), hreg.trans (by decide), (congrArg Status.bits hstatus).trans (by decide),
    (trap_leaves_intact p).2 m _ htrap⟩

end Instruction

end Microcontroller
