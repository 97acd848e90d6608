import Microcontroller.Instruction.Step
import Microcontroller.Proofs.Dialogue.Code

namespace Microcontroller

open Dialogue Routine

def completed (y : Dialogue (Unit × Processor)) : Dialogue (Except Trap Unit × Processor) :=
  y.bind fun r => .done (.ok r.1, r.2)

theorem run_liftM (x : Routine Unit) (p : Processor) : (liftM x : Attempt Unit).run p = completed (x.run p) := rfl

theorem Attempt.lift_bind {α β : Type} (x : Routine α) (f : α → Routine β) :
    (liftM (x >>= f) : Attempt β) = liftM x >>= fun value => liftM (f value) := by
  have hrun (p : Processor) : (liftM (x >>= f) : Attempt β).run p =
      (liftM x >>= fun value => liftM (f value) : Attempt β).run p := by
    rw [Attempt.run_lift, Attempt.run_bind, Attempt.run_lift, Routine.run_bind, Dialogue.bind_assoc,
      Dialogue.bind_assoc]
    rfl
  exact congrArg Attempt.mk (funext hrun)

theorem completed_bind (y : Dialogue (Unit × Processor)) (handle : Except Trap Unit × Processor → Dialogue
    (Except Trap Unit × Processor)) (h : ∀ q, handle (.ok (), q) = .done (.ok (), q)) :
    (completed y).bind handle = completed y := by
  rw [completed, Dialogue.bind_assoc]
  congr 1
  funext r
  exact h r.2

theorem run_completed {σ : Type} [Host σ] (y : Dialogue (Unit × Processor)) (host : σ) :
    (completed y).run host = ((.ok (), (y.run host).1.2), (y.run host).2) := by
  rw [completed, Dialogue.run_bind, run_done]

theorem transcript_completed {σ : Type} [Host σ] (y : Dialogue (Unit × Processor)) (host : σ) :
    (completed y).transcript host = y.transcript host := by
  rw [completed, transcript_bind]
  exact List.append_nil _

theorem fetchWord_takes (p : Processor) (data : Word) :
    Takes p.codePage p.pc [highByte data, lowByte data] (fetchWord.run p)
      (.done (data, { p with pc := p.pc + 1 + 1 })) := by
  rw [run_fetchWord, takes_fetch, takes_fetch, takes_nil, wordOf_bytes]

namespace Instruction

def reported (r : Except Trap Unit × Processor) : Dialogue (Except Trap Unit × Processor) :=
  match r.1 with
  | .ok value => .done (.ok value, r.2)
  | .error trap => .notify (.errorTrap trap) (.done (.error trap, r.2))

theorem run_reported (r : Except Trap Unit × Processor) (m : Memory) : (reported r).run m = (r, m) := by
  obtain ⟨result, p⟩ := r
  cases result <;> rfl

theorem run_step (p : Processor) :
    step.run p = .fetch (address p.codePage p.pc) fun first =>
      (((Form.ofByte first).execute first).run { p with pc := p.pc + 1 }).bind reported := by
  unfold step
  rw [Attempt.run_bind, Attempt.run_lift, run_fetch, fetch_bind, fetch_bind]
  simp only [done_bind, Attempt.run_tryCatch]
  congr 1
  funext first
  congr 1
  funext r
  obtain ⟨result, q⟩ := r
  cases result <;> rfl

def announcement (r : Except Trap Unit × Processor) : List Call :=
  match r.1 with
  | .ok _ => []
  | .error trap => [.notify (.errorTrap trap)]

theorem codeBytes_announced (a : Address) (first : Byte) (calls : List Call) (r : Except Trap Unit × Processor) :
    codeBytes (.fetch a first :: (calls ++ announcement r)) = first :: codeBytes calls := by
  have hannouncement : codeBytes (announcement r) = [] := by
    obtain ⟨result, q⟩ := r
    cases result <;> rfl
  rw [codeBytes_cons, codeBytes_append, hannouncement, List.append_nil]
  rfl

theorem codeAddresses_announcement (r : Except Trap Unit × Processor) : codeAddresses (announcement r) = [] := by
  obtain ⟨result, q⟩ := r
  cases result <;> rfl

theorem ensures_step (p : Processor) (post : List Call → Except Trap Unit × Processor → Prop) :
    (step.run p).Ensures post ↔ ∀ first,
      (((Form.ofByte first).execute first).run { p with pc := p.pc + 1 }).Ensures fun calls r =>
        post (.fetch (address p.codePage p.pc) first :: (calls ++ announcement r)) r := by
  rw [run_step, ensures_fetch]
  refine forall_congr' fun first => ?_
  rw [ensures_bind]
  constructor
  all_goals
    intro h
    apply h.mono
    rintro calls ⟨result, q⟩ h'
    cases result <;> exact h'

theorem step_takes_reported {first : Byte} {code : List Byte} {p : Processor} {attempt : Attempt Unit}
    {y : Dialogue (Except Trap Unit × Processor)} (hform : (Form.ofByte first).execute first = attempt)
    (h : Takes p.codePage (p.pc + 1) code (attempt.run { p with pc := p.pc + 1 }) y) :
    Takes p.codePage p.pc (first :: code) (step.run p) (y.bind reported) := by
  subst hform
  rw [run_step, takes_fetch]
  exact h.bind reported

theorem step_takes {first : Byte} {code : List Byte} {p : Processor} {attempt : Attempt Unit}
    {y : Dialogue (Unit × Processor)} (hform : (Form.ofByte first).execute first = attempt)
    (h : Takes p.codePage (p.pc + 1) code (attempt.run { p with pc := p.pc + 1 }) (completed y)) :
    Takes p.codePage p.pc (first :: code) (step.run p) (completed y) :=
  completed_bind y reported (fun _ => rfl) ▸ step_takes_reported hform h

def operationCode (code : Byte) : (escaped : Bool) → List Byte
  | false => [code]
  | true => [0, code]

theorem step_takes_form {mode code : Byte} {bytes : List Byte} {p q : Processor} {place : Place} {escaped : Bool}
    {x : Routine Unit} (hmode : Form.ofByte mode = .general)
    (hresolve : Takes p.codePage (p.pc + 1) bytes
      (((AddressingMode.ofByte mode).resolve (Size.field mode)).run { p with pc := p.pc + 1 }) (.done (place, q)))
    (hpage : q.codePage = p.codePage) (hpc : q.pc = advance (p.pc + 1) bytes.length) (hcode : code ≠ 0)
    (hexecute : GeneralForm.execute ⟨⟨place, Size.field mode, escaped⟩, code >>> 3, registerField code⟩ = liftM x) :
    Takes p.codePage p.pc (mode :: (bytes ++ operationCode code escaped)) (step.run p)
      (completed (x.run { q with pc := advance q.pc (operationCode code escaped).length })) := by
  apply step_takes rfl
  rw [hmode, Form.execute, Attempt.run_bind, Attempt.run_lift, GeneralForm.decode, run_bind]
  refine ((hresolve.bind _).bind _).bind _ |>.append ?_
  rw [← advance_eq, ← hpc, ← hpage, done_bind, run_bind, run_fetch, fetch_bind, fetch_bind, fetch_bind]
  cases escaped with
  | false =>
    have hzero : (code == 0) = false := by simpa using hcode
    rw [operationCode, takes_fetch, takes_nil]
    simp only [done_bind, hzero, Bool.false_eq_true, if_false]
    rw [← run_liftM, ← hexecute]
    rfl
  | true =>
    rw [operationCode, takes_fetch]
    simp only [done_bind, beq_self_eq_true, if_true]
    rw [← run_liftM, ← hexecute]
    exact ⟨_, rfl, rfl⟩

theorem step_takes_general {mode code : Byte} {bytes : List Byte} {p q : Processor} {place : Place}
    {x : Routine Unit} (hmode : Form.ofByte mode = .general)
    (hresolve : Takes p.codePage (p.pc + 1) bytes
      (((AddressingMode.ofByte mode).resolve (Size.field mode)).run { p with pc := p.pc + 1 }) (.done (place, q)))
    (hpage : q.codePage = p.codePage) (hpc : q.pc = advance (p.pc + 1) bytes.length) (hcode : code ≠ 0)
    (hexecute : GeneralForm.execute ⟨⟨place, Size.field mode, false⟩, code >>> 3, registerField code⟩ = liftM x) :
    Takes p.codePage p.pc (mode :: (bytes ++ [code])) (step.run p) (completed (x.run { q with pc := q.pc + 1 })) :=
  step_takes_form hmode hresolve hpage hpc hcode hexecute

def steps : Nat → Attempt Unit
  | 0 => pure ()
  | n + 1 => do
    step
    steps n

theorem steps_succ {σ : Type} [Host σ] {p q : Processor} {host host' : σ} (n : Nat)
    (h : (step.run p).run host = ((.ok (), q), host')) :
    ((steps (n + 1)).run p).run host = ((steps n).run q).run host' ∧
      ((steps (n + 1)).run p).transcript host = (step.run p).transcript host ++ ((steps n).run q).transcript host' := by
  rw [steps, Attempt.run_bind, Dialogue.run_bind, transcript_bind, h]
  exact ⟨rfl, rfl⟩

end Instruction

end Microcontroller
