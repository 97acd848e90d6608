import Microcontroller.Proofs.Arithmetic.ExactOutcomes
import Microcontroller.Proofs.Instruction.CountedLoop
import Microcontroller.Proofs.Instruction.EncodingAgreement
import Microcontroller.Proofs.Instruction.References
import Microcontroller.Proofs.Memory.Words

namespace Microcontroller

open Dialogue Memory Processor Routine
open Instruction (step)

section Steps

variable {p : Processor} {m : Memory}

theorem Leads.of_takes {code : List Byte} {y : Dialogue (Unit × Processor)}
    (h : Takes p.codePage p.pc code (step.run p) (completed y)) (hcode : m.Holds p.codePage p.pc code) :
    Leads (p, m) ((y.run m).1.2, (y.run m).2) := (h.run_eq hcode).trans (run_completed y m)

theorem Twin.leads {twin : Twin} {q : Processor} {m' : Memory} (hcode : m.Holds p.codePage p.pc twin.short)
    (hnext : twin.displacement p = 0#16)
    (heffect : ((twin.effect (p.pc + BitVec.ofNat 16 twin.short.length)).run p).run m = (((), q), m')) :
    Leads (p, m) ({ q with pc := p.pc + BitVec.ofNat 16 twin.short.length }, m') := by
  have hrun := ((twin.short_step p).run_eq hcode).trans (twin.run_stepFrom p _ m)
  rwa [heffect, hnext, BitVec.add_zero] at hrun

theorem leads_moveWord (r : Register) (data : Word) (hcode : m.Holds p.codePage p.pc (Twin.moveWord r data).short) :
    Leads (p, m) ({ (p.setReg r data).updateStatus (·.withResult (data.setWidth 32) .word) with pc := p.pc + 3 }, m) := by
  apply Twin.leads hcode rfl
  change ((((), (p.store r (data.setWidth 32) .word).updateStatus _), m) : (Unit × Processor) × Memory) = _
  rw [Processor.store, word_of_long]

theorem leads_storeWord (r : Register) (low : Byte) (hcode : m.Holds p.codePage p.pc (Twin.store .word r low).short) :
    Leads (p, m) ({ p.updateStatus (·.withResult (p.long r) .word) with pc := p.pc + 2 },
      m.storeWord (address 0 (wordOf p.base low)) (p.reg r)) := by
  apply Twin.leads hcode rfl
  rw [← word_of_long (p.reg r)]
  simp only [Twin.effect, Operand.assign, Operand.write, Routine.run_bind, Routine.run_get, run_checkAlignment, done_bind]
  split <;> rfl

theorem leads_sleep (hcode : m.Holds p.codePage p.pc [0x1A]) :
    Leads (p, m) ({ p with asleep := true, pc := p.pc + 1 }, m) := by
  have htakes : Takes p.codePage p.pc [0x1A] (step.run p)
      (completed (.done ((), { p with asleep := true, pc := p.pc + 1 }))) := Instruction.step_takes rfl rfl
  exact Leads.of_takes htakes hcode

theorem GeneralForm.execute_addQuick (operand : Operand) {sub : Register} {value : Long}
    (h : quickValue? sub = some value) :
    execute ⟨operand, 1, sub⟩ = liftM (do
      let source ← operand.read
      let sum ← conclude (Arithmetic.add source value false operand.size)
      operand.write sum) := by
  have hwrite (sum : Long) : (liftM (operand.write sum) >>= fun _ => pure () : Attempt Unit) =
      liftM (operand.write sum) :=
    (Attempt.lift_bind _ fun _ => pure ()).symm.trans (congrArg liftM bind_pure_unit)
  change operand.addQuick 1 sub = _
  simp only [Operand.addQuick, h, Option.getD_some, Option.isNone_some, Bool.false_eq_true, if_false, Attempt.lift_bind,
    hwrite]

def Processor.quickened (p : Processor) (r : Register) (value : Long) : Processor :=
  let outcome := Arithmetic.add (Size.word.truncate (p.long r)) value false .word
  { (p.updateStatus (·.withCodes outcome.codes)).setReg r (outcome.value.setWidth 16) with pc := p.pc + 2 }

theorem leads_quickened (r : Register)
    (hcode : m.Holds p.codePage p.pc ((Reference.register r : Reference .word).encode false 0x08)) :
    Leads (p, m) (p.quickened r 1, m) := by
  let reference : Reference .word := .register r
  have hfields : (0x08 : Byte) >>> 3 = 1 ∧ registerField 0x08 = 0 := by decide
  have hexecute := GeneralForm.execute_addQuick (reference.operand p false) (show quickValue? 0 = some 1 from rfl)
  rw [← hfields.1, ← hfields.2] at hexecute
  exact Leads.of_takes (reference.step_takes p (by decide) hexecute) hcode

theorem reg_quickened (r s : Register) (value : Long) :
    (p.quickened r value).reg s = if s = r then p.reg r + value.setWidth 16 else p.reg s := by
  have hsum := Arithmetic.cut_value_add (Size.word.truncate (p.long r)) value .word
  rw [Size.cut_truncate] at hsum
  change (((p.updateStatus _).setReg r _)).reg s = _
  rw [reg_setReg, show BitVec.setWidth 16 _ = _ from hsum]
  exact congrArg (fun x => if s = r then x + value.setWidth 16 else p.reg s) (word_of_long (p.reg r))

end Steps

namespace CountedLoop

variable {loop : CountedLoop} {p : Processor} {m : Memory}

theorem At.leads (hplace : loop.At loop.place p) (hcode : m.Holds loop.page loop.place loop.code) :
    Leads (p, m) (loop.count p, m) := ((count_takes hplace).run_eq hcode).trans (run_completed _ m)

theorem At.codeBytes_eq (hplace : loop.At loop.place p) (hcode : m.Holds loop.page loop.place loop.code) :
    codeBytes ((step.run p).transcript m) = loop.code :=
  ((count_takes hplace).codeBytes_eq hcode).trans (List.append_nil _)

end CountedLoop

/-- Counts up from `a` in a loop that counts down from `n`, stores what it has come to and sleeps. -/
def countingProgram (a n : Word) : List Byte :=
  [0x59, highByte a, lowByte a] ++ -- MOV:I #a, R1
  [0x5A, highByte n, lowByte n] ++ -- MOV:I #n, R2
  [0xA9, 0x08] ++ -- ADDQ.W #1, R1
  [0x01, 0xBA, 0xFB] ++ -- SCB/F R2, to the addition
  [0x79, 0x40] ++ -- MOV:S.W R1, @0x40
  [0x1A] -- SLEEP

namespace CountingProgram

def loop : CountedLoop where
  page := 0
  place := 8
  register := 2
  offset := 0xFB

structure Placed (a n : Word) (m : Memory) : Prop where
  start : m.Holds 0 0 (Twin.moveWord 1 a).short
  count : m.Holds 0 3 (Twin.moveWord 2 n).short
  add : m.Holds 0 6 [0xA9, 0x08]
  branch : m.Holds 0 8 loop.code
  store : m.Holds 0 11 (Twin.store .word 1 0x40).short
  sleep : m.Holds 0 13 [0x1A]

theorem placed {a n : Word} {m : Memory} (h : m.Holds 0 0 (countingProgram a n)) : Placed a n m := by
  simp only [countingProgram, holds_append] at h
  obtain ⟨⟨⟨⟨⟨hstart, hcount⟩, hadd⟩, hloop⟩, hstore⟩, hsleep⟩ := h
  exact ⟨hstart, hcount, hadd, hloop, hstore, hsleep⟩

structure Counting (a : Word) (base : Byte) (m : Memory) (passed before : Nat) (s : Processor × Memory) : Prop where
  steps : before = 2 * passed
  memory : s.2 = m
  sum : s.1.reg 1 = a + BitVec.ofNat 16 passed
  base : s.1.base = base
  awake : s.1.asleep = false

variable {a n : Word} {base : Byte} {m : Memory} {passed before steps : Nat} {s t u : Processor × Memory}

theorem Placed.passes (h : Placed a n m) (hmemory : s.2 = m) (hentry : loop.At loop.entry s.1) :
    loop.Passes 1 s (s.1.quickened 1 1, m) := by
  obtain ⟨p, m⟩ := s
  subst hmemory
  obtain ⟨hpage, hpc⟩ := hentry
  have hplace : loop.At loop.place (p.quickened 1 1) := by
    refine ⟨hpage, ?_⟩
    change p.pc + 2 = 8
    rw [hpc]
    decide
  have hapart : ¬loop.At loop.place p := by
    rintro ⟨-, hsame⟩
    rw [hpc] at hsame
    exact absurd hsame (by decide)
  have hleads : Leads (p, m) (p.quickened 1 1, m) := by
    apply leads_quickened
    rw [hpage, hpc]
    exact h.add
  have hkept : (p.quickened 1 1).reg 2 = p.reg 2 := (reg_quickened 1 2 1).trans (if_neg (by decide))
  exact ⟨.next hapart hleads (.arrived hplace), hkept, hplace.codeBytes_eq h.branch⟩

theorem Counting.round (h : Placed a n m) (hcounting : Counting a base m passed before s)
    (hentry : loop.At loop.entry s.1) (hpass : loop.Passes steps s t) (hleads : Leads t u) :
    Counting a base m (passed + 1) (before + (steps + 1)) u := by
  have hone := h.passes hcounting.memory hentry
  obtain ⟨rfl, rfl⟩ := hpass.body.unique hone.body
  obtain rfl := hleads.unique (hone.body.place.leads h.branch)
  refine ⟨by rw [hcounting.steps, Nat.mul_succ], rfl, ?_, hcounting.base, hcounting.awake⟩
  have hkept : (loop.count (s.1.quickened 1 1)).reg 1 = (s.1.quickened 1 1).reg 1 :=
    (reg_setReg _ 2 1 _).trans (if_neg (by decide))
  rw [hkept, reg_quickened, if_pos rfl, hcounting.sum, BitVec.add_assoc, BitVec.ofNat_add]
  rfl

theorem holds_sleep_storeWord (base : Byte) (value : Word) (h : m.Holds 0 13 [0x1A]) :
    (m.storeWord (address 0 (wordOf base 0x40)) value).Holds 0 13 [0x1A] := by
  apply h.congr
  intro b hb
  obtain rfl := List.mem_singleton.mp hb
  have hplace : (address 0 (wordOf base 0x40)).toNat = base.toNat * 256 + 64 := by
    rw [toNat_address_zero, wordOf, toNat_append_eq, Nat.shiftLeft_eq]
    rfl
  have hcode : (address 0 13).toNat = 13 := rfl
  apply read_storeWord
  · intro heven
    have hsame := congrArg BitVec.toNat heven
    rw [hcode, toNat_evenAddress, hplace] at hsame
    omega
  · intro hodd
    have hsame := congrArg BitVec.toNat hodd
    rw [hcode, toNat_oddAddress, hplace] at hsame
    omega

theorem Placed.enters (h : Placed a n m) {p : Processor} (hpage : p.codePage = 0) (hpc : p.pc = 0)
    (hawake : p.asleep = false) :
    ∃ q, Reaches 2 (p, m) (q, m) ∧ loop.At loop.entry q ∧ q.reg 2 = n ∧ Counting a p.base m 0 0 (q, m) := by
  let p' : Processor := { (p.setReg 1 a).updateStatus (·.withResult (a.setWidth 32) .word) with pc := p.pc + 3 }
  let q : Processor := { (p'.setReg 2 n).updateStatus (·.withResult (n.setWidth 32) .word) with pc := p'.pc + 3 }
  have hpc' : p'.pc = 3 := by
    change p.pc + 3 = 3
    rw [hpc]
    decide
  have hfirst : Leads (p, m) (p', m) := by
    apply leads_moveWord
    rw [hpage, hpc]
    exact h.start
  have hsecond : Leads (p', m) (q, m) := by
    apply leads_moveWord
    rw [hpc', show p'.codePage = 0 from hpage]
    exact h.count
  have hentry : loop.At loop.entry q := by
    refine ⟨hpage, ?_⟩
    change p'.pc + 3 = loop.entry
    rw [hpc']
    decide
  have hcount : q.reg 2 = n := (reg_setReg p' 2 2 n).trans (if_pos rfl)
  have hstart : p'.reg 1 = a := (reg_setReg p 1 1 a).trans (if_pos rfl)
  have hkept : q.reg 1 = p'.reg 1 := (reg_setReg p' 2 1 n).trans (if_neg (by decide))
  have hsum : q.reg 1 = a + 0 := (hkept.trans hstart).trans (BitVec.add_zero a).symm
  exact ⟨q, .next hfirst (.next hsecond (.done _)), hentry, hcount, rfl, rfl, hsum, rfl, hawake⟩

theorem Placed.counts (h : Placed a n m) {p : Processor} (hentry : loop.At loop.entry p) (hn : p.reg 2 = n)
    (hcounting : Counting a base m 0 0 (p, m)) :
    ∃ q, Reaches (2 * (n.toNat + 1)) (p, m) (q, m) ∧ loop.At loop.behind q ∧ q.reg 1 = a + n + 1 ∧ q.reg 2 = 0xFFFF ∧
      q.base = base ∧ q.asleep = false := by
  have hround {passed before steps : Nat} {s t u : Processor × Memory} (hs : Counting a base m passed before s) :
      loop.At loop.entry s.1 → loop.Passes steps s t → Leads t u →
        Counting a base m (passed + 1) (before + (steps + 1)) u := hs.round h
  have hpasses (s : Processor × Memory) (hs : loop.Entered (p, m) s) : ∃ steps t, loop.Passes steps s t := by
    obtain ⟨hagain, passed, before, hs⟩ := hs.invariant hround hcounting
    exact ⟨1, _, h.passes hs.memory hagain⟩
  have hcount : (p.reg 2).toNat = n.toNat := congrArg BitVec.toNat hn
  obtain ⟨steps, ⟨q, m'⟩, hruns⟩ := CountedLoop.Entered.exists_runs hpasses (.first hentry) hcount
  have hlast := hruns.invariant hround hentry hcounting
  have hreaches := hruns.reaches
  obtain ⟨hbehind, hcount⟩ := hruns.left
  obtain ⟨hsteps, rfl, hsum, hbase, hawake⟩ := hlast
  rw [Nat.zero_add, Nat.zero_add] at hsteps
  subst hsteps
  refine ⟨q, hreaches, hbehind, hsum.trans ?_, hcount, hbase, hawake⟩
  rw [Nat.zero_add, BitVec.ofNat_add, BitVec.ofNat_toNat, BitVec.setWidth_eq, ← BitVec.add_assoc]
  rfl

theorem Placed.stores (h : Placed a n m) {p : Processor} (hbehind : loop.At loop.behind p) (hawake : p.asleep = false) :
    let stored := m.storeWord (address 0 (wordOf p.base 0x40)) (p.reg 1)
    ∃ q last : Processor, Leads (p, m) (q, stored) ∧ q.asleep = false ∧ Leads (q, stored) (last, stored) ∧
      last.asleep = true ∧ last.registers = p.registers := by
  intro stored
  obtain ⟨hpage, hpc⟩ := hbehind
  let q : Processor := { p.updateStatus (·.withResult (p.long 1) .word) with pc := p.pc + 2 }
  have hstore : Leads (p, m) (q, stored) := by
    apply leads_storeWord 1 0x40
    rw [hpc, show p.codePage = 0 from hpage]
    exact h.store
  have hpcq : q.pc = 13 := by
    change p.pc + 2 = 13
    rw [hpc]
    decide
  have hsleep : Leads (q, stored) ({ q with asleep := true, pc := q.pc + 1 }, stored) := by
    apply leads_sleep
    rw [hpcq, show q.codePage = 0 from hpage]
    exact holds_sleep_storeWord p.base _ h.sleep
  exact ⟨q, _, hstore, hawake, hsleep, rfl, rfl⟩

theorem Placed.sleeps (h : Placed a n m) {p : Processor} (hpage : p.codePage = 0) (hpc : p.pc = 0)
    (hawake : p.asleep = false) :
    let steps := 2 + 2 * (n.toNat + 1) + 2
    ∃ last : Processor, last.reg 1 = a + n + 1 ∧ last.reg 2 = 0xFFFF ∧ last.asleep = true ∧
      ∀ limit, steps < limit → ((Instruction.run limit).run p).run m =
        (((steps, .sleep), last), m.storeWord (address 0 (wordOf p.base 0x40)) (a + n + 1)) := by
  intro steps
  obtain ⟨p', hstart, hentry, hcount, hcounting⟩ := h.enters hpage hpc hawake
  obtain ⟨q, hloop, hbehind, hsum, hlast, hbase, hawake'⟩ := h.counts hentry hcount hcounting
  obtain ⟨q', last, hstore, hawake'', hsleep, hasleep, hregisters⟩ := h.stores hbehind hawake'
  rw [hbase, hsum] at hstore hsleep
  have hreg (r : Register) : last.reg r = q.reg r := congrArg (fun registers : Vector Word 8 => registers[r]) hregisters
  refine ⟨last, (hreg 1).trans hsum, (hreg 2).trans hlast, hasleep, ?_⟩
  intro limit hlimit
  obtain ⟨rest, rfl⟩ := Nat.exists_eq_add_of_lt hlimit
  have hreaches := (hstart.trans hloop).trans (.next hstore (.done _))
  have hrun := hreaches.runFrom_eq hawake'' 0 (rest + 2)
  have hlimit : 2 + 2 * (n.toNat + 1) + (0 + 1) + (rest + 2) = steps + rest + 1 := by omega
  have hsteps : 0 + (2 + 2 * (n.toNat + 1) + (0 + 1)) + 1 = steps := by omega
  rwa [hsleep.runFrom_sleeps hawake'' hasleep, hlimit, hsteps] at hrun

end CountingProgram

theorem counted_loop_counts :
    (∀ (σ : Type) [Host σ] (loop : CountedLoop) (start : Processor × σ), loop.At loop.entry start.1 →
      (∀ s, loop.Entered start s → ∃ steps t, loop.Passes steps s t) →
        let n := (start.1.reg loop.register).toNat
        ∃ steps last, loop.Runs (n + 1) n steps start last ∧ loop.At loop.behind last.1 ∧
          last.1.reg loop.register = 0xFFFF ∧
            ∀ passes taken steps' last', loop.Runs passes taken steps' start last' →
              passes = n + 1 ∧ taken = n ∧ steps' = steps ∧ last' = last) ∧
    ∀ (a n : Word) (p : Processor) (m : Memory), m.Holds 0 0 (countingProgram a n) → p.codePage = 0 → p.pc = 0 →
      p.asleep = false →
        let steps := 2 + 2 * (n.toNat + 1) + 2
        ∃ last : Processor, last.reg 1 = a + n + 1 ∧ last.reg 2 = 0xFFFF ∧ last.asleep = true ∧
          ∀ limit, steps < limit → ((Instruction.run limit).run p).run m =
            (((steps, .sleep), last), m.storeWord (address 0 (wordOf p.base 0x40)) (a + n + 1)) := by
  refine ⟨?_, ?_⟩
  · intro σ _ loop start hentry hpasses n
    obtain ⟨steps, last, hruns⟩ := CountedLoop.Entered.exists_runs hpasses (.first hentry) rfl
    obtain ⟨hbehind, hcount⟩ := hruns.left
    exact ⟨steps, last, hruns, hbehind, hcount, fun _ _ _ _ => hruns.unique⟩
  · intro a n p m hcode hpage hpc hawake
    exact (CountingProgram.placed hcode).sleeps hpage hpc hawake

theorem counted_loop_counts_across_page_end :
    let loop : CountedLoop := ⟨3, 0xFFFE, 4, 0xFD⟩
    let p : Processor := { Processor.new.setReg 4 0x1234 with pc := 0xFFFE, codePage := 3 }
    let m := ((filled 0).store 0x3FFFE #[0x01, 0xBC]).write 0x30000 0xFD
    let program := (filled 0).store 0 (countingProgram 0xFFFE 5).toArray
    loop.At loop.entry p ∧ (∀ s, loop.Entered (p, m) s → ∃ steps t, loop.Passes steps s t) ∧
      (∃ steps last, loop.Runs 0x1235 0x1234 steps (p, m) last ∧ last.1.pc = 1 ∧ last.1.reg 4 = 0xFFFF) ∧
        program.Holds 0 0 (countingProgram 0xFFFE 5) ∧
          ∃ last : Processor, last.reg 1 = 4 ∧ last.reg 2 = 0xFFFF ∧
            ((Instruction.run 17).run .new).run program = (((16, .sleep), last), program.storeWord 0x40 4) := by
  intro loop p m program
  have hentry : loop.At loop.entry p := ⟨rfl, by decide⟩
  have hcode : m.Holds loop.page loop.place loop.code := by decide +kernel
  have hplace : loop.entry = loop.place := by decide
  have hpasses (s : Processor × Memory) (hs : loop.Entered (p, m) s) : ∃ steps t, loop.Passes steps s t := by
    have hstays : loop.At loop.place s.1 ∧ s.2 = m := by
      induction hs with
      | first hentry => exact ⟨hplace ▸ hentry, rfl⟩
      | @again steps s t u h hpass hleads hcount hagain ih =>
        obtain ⟨q, m'⟩ := s
        obtain ⟨hstays, rfl⟩ := ih
        obtain ⟨-, rfl⟩ := hpass.body.unique (.arrived hstays)
        exact ⟨hplace ▸ hagain, congrArg Prod.snd (hleads.unique (hstays.leads hcode))⟩
    obtain ⟨q, m'⟩ := s
    obtain ⟨hstays, rfl⟩ := hstays
    exact ⟨0, _, .arrived hstays, rfl, hstays.codeBytes_eq hcode⟩
  have hprogram : program.Holds 0 0 (countingProgram 0xFFFE 5) := by decide +kernel
  obtain ⟨hloops, hsleeps⟩ := counted_loop_counts
  obtain ⟨steps, last, hruns, hbehind, hcount, -⟩ := hloops Memory loop (p, m) hentry hpasses
  obtain ⟨q, hsum, hlast, -, hrun⟩ := hsleeps 0xFFFE 5 .new program hprogram rfl rfl rfl
  have hpc : last.1.pc = 1 := hbehind.2.trans (by decide)
  exact ⟨hentry, hpasses, ⟨steps, last, hruns, hpc, hcount⟩, hprogram, q, hsum, hlast, hrun 17 (by decide)⟩

end Microcontroller
