import Microcontroller.Proofs.Instruction.ControlState
import Microcontroller.Proofs.Instruction.Twins

/-!
Counted loops. A loop is given by its counting instruction, and its body is what runs from the branch target straight to
that instruction. The body is passed once more than the count says, whatever it does besides and on any host.
-/

namespace Microcontroller

open Dialogue Processor
open Instruction (step)
open Twin (withRegister)

section Steps

variable {σ : Type} [Host σ] {s t u : Processor × σ} {steps more : Nat}

def Leads (s t : Processor × σ) : Prop := (step.run s.1).run s.2 = ((.ok (), t.1), t.2)

theorem Leads.unique (h : Leads s t) (h' : Leads s u) : t = u := by
  have hresults := Eq.trans (Eq.symm h) h'
  injection hresults with hresult hhost
  injection hresult with _ hprocessor
  exact Prod.ext hprocessor hhost

theorem Leads.awake (h : Leads s t) (hawake : t.1.asleep = false) : s.1.asleep = false := by
  have hsettles := (Instruction.step_settles s.1).transcript s.2
  rw [show (step.run s.1).run s.2 = _ from h] at hsettles
  rcases hsettles.cases with ⟨-, hloaded, -⟩ | ⟨-, hcontrol⟩
  · exact hloaded.asleep.symm.trans hawake
  · have hasleep := congrArg ControlState.asleep hcontrol
    rw [show t.1.control.asleep = false from hawake] at hasleep
    exact (Bool.or_eq_false_iff.mp hasleep.symm).1

theorem Leads.runFrom_succ (h : Leads s t) (hawake : s.1.asleep = false) (before limit : Nat) :
    ((Instruction.runFrom before (limit + 1)).run s.1).run s.2 =
      ((Instruction.runFrom (before + 1) limit).run t.1).run t.2 := by
  rw [Instruction.runFrom, Routine.run_bind, Routine.run_get, done_bind, hawake, if_neg Bool.false_ne_true,
    Routine.run_bind, Dialogue.run_bind, Attempt.run_outcome, show (step.run s.1).run s.2 = _ from h]

theorem Leads.runFrom_sleeps (h : Leads s t) (hawake : s.1.asleep = false) (hasleep : t.1.asleep = true)
    (before limit : Nat) :
    ((Instruction.runFrom before (limit + 2)).run s.1).run s.2 = (((before + 1, .sleep), t.1), t.2) := by
  rw [h.runFrom_succ hawake, Instruction.runFrom, Routine.run_bind, Routine.run_get, done_bind, hasleep, if_pos rfl]
  rfl

inductive Reaches : (steps : Nat) → Processor × σ → Processor × σ → Prop
  | done (s : Processor × σ) : Reaches 0 s s
  | next {steps : Nat} {s t u : Processor × σ} (first : Leads s t) (rest : Reaches steps t u) : Reaches (steps + 1) s u

theorem Reaches.trans (h : Reaches steps s t) (h' : Reaches more t u) : Reaches (steps + more) s u := by
  induction h with
  | done s => exact (Nat.zero_add more).symm ▸ h'
  | next first rest ih => exact Nat.succ_add _ more ▸ .next first (ih h')

theorem Reaches.awake (h : Reaches steps s t) (hawake : t.1.asleep = false) : s.1.asleep = false := by
  induction h with
  | done s => exact hawake
  | next first rest ih => exact first.awake (ih hawake)

theorem Reaches.runFrom_eq (h : Reaches steps s t) (hawake : t.1.asleep = false) (before limit : Nat) :
    ((Instruction.runFrom before (steps + limit)).run s.1).run s.2 =
      ((Instruction.runFrom (before + steps) limit).run t.1).run t.2 := by
  induction h generalizing before with
  | done s => rw [Nat.zero_add, Nat.add_zero]
  | @next steps s t u first rest ih =>
    have hs : s.1.asleep = false := first.awake (rest.awake hawake)
    rw [Nat.succ_add, first.runFrom_succ hs, ih hawake, Nat.succ_add_eq_add_succ]

end Steps

structure CountedLoop where
  page : Byte
  place : Word
  register : Register
  offset : Byte

namespace CountedLoop

def code (loop : CountedLoop) : List Byte := [0x01, withRegister 0xB8 loop.register, loop.offset]

def behind (loop : CountedLoop) : Word := loop.place + 3

def entry (loop : CountedLoop) : Word := loop.behind + loop.offset.signExtend 16

def At (loop : CountedLoop) (pc : Word) (p : Processor) : Prop := p.codePage = loop.page ∧ p.pc = pc

def count (loop : CountedLoop) (p : Processor) : Processor :=
  { p.setReg loop.register (p.reg loop.register - 1) with
    pc := if p.reg loop.register = 0 then loop.behind else loop.entry }

variable {loop : CountedLoop}

theorem reg_count (loop : CountedLoop) (p : Processor) :
    (loop.count p).reg loop.register = p.reg loop.register - 1 := by
  change (p.setReg loop.register _).reg loop.register = _
  rw [reg_setReg, if_pos rfl]

theorem count_takes {p : Processor} (hplace : loop.At loop.place p) :
    Takes loop.page loop.place loop.code (step.run p) (completed (.done ((), loop.count p))) := by
  obtain ⟨hpage, hpc⟩ := hplace
  have hkind : withRegister 0xB8 loop.register >>> 3 = 0x17 := by
    generalize loop.register = r
    decide +revert
  have hregister : registerField (withRegister 0xB8 loop.register) = loop.register := by
    generalize loop.register = r
    decide +revert
  have hbehind : p.pc + 1 + 1 + 1 = loop.behind := by
    rw [behind, hpc, BitVec.add_assoc, BitVec.add_assoc]
    rfl
  have hreg : Processor.reg { p with pc := loop.behind } loop.register = p.reg loop.register := rfl
  rw [← hpage, ← hpc]
  apply Instruction.step_takes rfl
  change Takes _ _ _ ((Instruction.countDown (fun _ => true) 0x01).run _) _
  simp only [Instruction.countDown, Attempt.run_bind, Attempt.run_lift, Routine.run_fetch, Routine.run_fetchDisplacement,
    fetch_bind, done_bind, takes_fetch, takes_nil, hkind, hregister, if_true, Attempt.run_get, hbehind, hreg]
  rw [count]
  by_cases hzero : p.reg loop.register = 0
  · rw [if_pos hzero, if_pos hzero]
    rfl
  · rw [if_neg hzero, if_neg hzero]
    rfl

section Host

variable {σ : Type} [Host σ]

inductive Body (loop : CountedLoop) : (steps : Nat) → Processor × σ → Processor × σ → Prop
  | arrived {s : Processor × σ} (hplace : loop.At loop.place s.1) : Body loop 0 s s
  | next {steps : Nat} {s t u : Processor × σ} (hapart : ¬loop.At loop.place s.1) (first : Leads s t)
      (rest : Body loop steps t u) : Body loop (steps + 1) s u

/-- The body runs straight through and leaves the counting instruction, its register and its page as they were. -/
structure Passes (loop : CountedLoop) (steps : Nat) (s t : Processor × σ) : Prop where
  body : loop.Body steps s t
  register : t.1.reg loop.register = s.1.reg loop.register
  code : codeBytes ((step.run t.1).transcript t.2) = loop.code

inductive Entered (loop : CountedLoop) (start : Processor × σ) : Processor × σ → Prop
  | first (hentry : loop.At loop.entry start.1) : Entered loop start start
  | again {steps : Nat} {s t u : Processor × σ} (h : Entered loop start s) (hpass : loop.Passes steps s t)
      (hleads : Leads t u) (hcount : u.1.reg loop.register ≠ 0xFFFF) (hentry : loop.At loop.entry u.1) :
      Entered loop start u

/-- The loop runs to its end, with so many passes through the body, branches taken and instructions. -/
inductive Runs (loop : CountedLoop) : (passes taken steps : Nat) → Processor × σ → Processor × σ → Prop
  | leave {steps : Nat} {s t u : Processor × σ} (hpass : loop.Passes steps s t) (hleads : Leads t u)
      (hcount : u.1.reg loop.register = 0xFFFF) (hbehind : loop.At loop.behind u.1) : Runs loop 1 0 (steps + 1) s u
  | again {passes taken steps more : Nat} {s t u last : Processor × σ} (hpass : loop.Passes steps s t)
      (hleads : Leads t u) (hcount : u.1.reg loop.register ≠ 0xFFFF) (hentry : loop.At loop.entry u.1)
      (rest : Runs loop passes taken more u last) : Runs loop (passes + 1) (taken + 1) (steps + 1 + more) s last

variable {s t t' u last last' start : Processor × σ} {passes passes' taken taken' steps steps' : Nat}

theorem Body.reaches (h : loop.Body steps s t) : Reaches steps s t := by
  induction h with
  | arrived hplace => exact .done _
  | next hapart first rest ih => exact .next first ih

theorem Body.place (h : loop.Body steps s t) : loop.At loop.place t.1 := by
  induction h with
  | arrived hplace => exact hplace
  | next hapart first rest ih => exact ih

theorem Body.unique (h : loop.Body steps s t) (h' : loop.Body steps' s t') : steps = steps' ∧ t = t' := by
  induction h generalizing steps' with
  | arrived hplace =>
    cases h' with
    | arrived => exact ⟨rfl, rfl⟩
    | next hapart first rest => exact absurd hplace hapart
  | next hapart first rest ih =>
    cases h' with
    | arrived hplace => exact absurd hplace hapart
    | next hapart' first' rest' =>
      obtain rfl := first.unique first'
      obtain ⟨rfl, rfl⟩ := ih rest'
      exact ⟨rfl, rfl⟩

theorem Passes.exists_leads (h : loop.Passes steps s t) : ∃ host, Leads t (loop.count t.1, host) := by
  obtain ⟨host, hrun, -, -⟩ := (count_takes h.body.place).exists_host t.2 (h.code ▸ List.prefix_rfl)
  rw [run_completed] at hrun
  exact ⟨_, hrun⟩

theorem At.count {p : Processor} (hplace : loop.At loop.place p) :
    loop.At (if p.reg loop.register = 0 then loop.behind else loop.entry) (loop.count p) := ⟨hplace.1, rfl⟩

theorem Runs.reaches (h : loop.Runs passes taken steps s last) : Reaches steps s last := by
  induction h with
  | leave hpass hleads hcount hbehind => exact hpass.body.reaches.trans (.next hleads (.done _))
  | again hpass hleads hcount hentry rest ih => exact (hpass.body.reaches.trans (.next hleads (.done _))).trans ih

theorem Runs.left (h : loop.Runs passes taken steps s last) :
    loop.At loop.behind last.1 ∧ last.1.reg loop.register = 0xFFFF := by
  induction h with
  | leave hpass hleads hcount hbehind => exact ⟨hbehind, hcount⟩
  | again hpass hleads hcount hentry rest ih => exact ih

theorem Runs.unique (h : loop.Runs passes taken steps s last) (h' : loop.Runs passes' taken' steps' s last') :
    passes' = passes ∧ taken' = taken ∧ steps' = steps ∧ last' = last := by
  induction h generalizing passes' taken' steps' with
  | leave hpass hleads hcount hbehind =>
    cases h' with
    | leave hpass' hleads' hcount' hbehind' =>
      obtain ⟨rfl, rfl⟩ := hpass.body.unique hpass'.body
      obtain rfl := hleads.unique hleads'
      exact ⟨rfl, rfl, rfl, rfl⟩
    | again hpass' hleads' hcount' hentry' rest' =>
      obtain ⟨-, rfl⟩ := hpass.body.unique hpass'.body
      obtain rfl := hleads.unique hleads'
      exact absurd hcount hcount'
  | again hpass hleads hcount hentry rest ih =>
    cases h' with
    | leave hpass' hleads' hcount' hbehind' =>
      obtain ⟨-, rfl⟩ := hpass.body.unique hpass'.body
      obtain rfl := hleads.unique hleads'
      exact absurd hcount' hcount
    | again hpass' hleads' hcount' hentry' rest' =>
      obtain ⟨rfl, rfl⟩ := hpass.body.unique hpass'.body
      obtain rfl := hleads.unique hleads'
      obtain ⟨rfl, rfl, rfl, rfl⟩ := ih rest'
      exact ⟨rfl, rfl, rfl, rfl⟩

theorem Entered.exists_runs (hpasses : ∀ s, loop.Entered start s → ∃ steps t, loop.Passes steps s t)
    (h : loop.Entered start s) {n : Nat} (hn : (s.1.reg loop.register).toNat = n) :
    ∃ steps last, loop.Runs (n + 1) n steps s last := by
  induction n generalizing s with
  | zero =>
    obtain ⟨steps, t, hpass⟩ := hpasses s h
    obtain ⟨host, hleads⟩ := hpass.exists_leads
    have hzero : t.1.reg loop.register = 0 := hpass.register.trans (BitVec.eq_of_toNat_eq hn)
    have hcount : (loop.count t.1).reg loop.register = 0xFFFF := by
      rw [reg_count, hzero]
      rfl
    have hbehind := hpass.body.place.count
    rw [if_pos hzero] at hbehind
    exact ⟨steps + 1, _, .leave hpass hleads hcount hbehind⟩
  | succ n ih =>
    obtain ⟨steps, t, hpass⟩ := hpasses s h
    obtain ⟨host, hleads⟩ := hpass.exists_leads
    rw [← hpass.register] at hn
    have hrange := (t.1.reg loop.register).isLt
    have hnonzero : t.1.reg loop.register ≠ 0 := by
      intro hzero
      rw [hzero] at hn
      exact absurd hn (Nat.succ_ne_zero n).symm
    have hless : ((loop.count t.1).reg loop.register).toNat = n := by
      rw [reg_count, BitVec.toNat_sub, hn]
      change (65536 - 1 + (n + 1)) % 65536 = n
      omega
    have hcount : (loop.count t.1).reg loop.register ≠ 0xFFFF := by
      intro hlast
      rw [hlast] at hless
      change 65535 = n at hless
      omega
    have hentry := hpass.body.place.count
    rw [if_neg hnonzero] at hentry
    obtain ⟨more, last, hruns⟩ := ih (h.again hpass hleads hcount hentry) hless
    exact ⟨steps + 1 + more, last, .again hpass hleads hcount hentry hruns⟩

section Invariant

variable {kept : (passes steps : Nat) → Processor × σ → Prop} {passed before : Nat}
  (hround : ∀ {passed before steps s t u}, kept passed before s → loop.At loop.entry s.1 → loop.Passes steps s t →
    Leads t u → kept (passed + 1) (before + (steps + 1)) u)

include hround

theorem Entered.invariant (h : loop.Entered start s) (hkept : kept passed before start) :
    loop.At loop.entry s.1 ∧ ∃ passed before, kept passed before s := by
  induction h with
  | first hentry => exact ⟨hentry, passed, before, hkept⟩
  | again h hpass hleads hcount hagain ih =>
    obtain ⟨hentry, passed, before, hs⟩ := ih
    exact ⟨hagain, _, _, hround hs hentry hpass hleads⟩

theorem Runs.invariant (h : loop.Runs passes taken steps s last) (hentry : loop.At loop.entry s.1)
    (hkept : kept passed before s) : kept (passed + passes) (before + steps) last := by
  induction h generalizing passed before with
  | leave hpass hleads hcount hbehind => exact hround hkept hentry hpass hleads
  | again hpass hleads hcount hagain rest ih =>
    have hlast := ih hagain (hround hkept hentry hpass hleads)
    rwa [Nat.add_assoc, Nat.add_assoc, Nat.add_comm 1] at hlast

end Invariant

end Host

end CountedLoop

end Microcontroller
