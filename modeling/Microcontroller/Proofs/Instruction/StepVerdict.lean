import Microcontroller.Proofs.Instruction.CodeOrder
import Microcontroller.Proofs.Instruction.FormVerdict

namespace Microcontroller.Instruction

open Conduct Dialogue Grammar Routine

theorem step_ensures (p : Processor) :
    (step.run p).Ensures fun calls r =>
      verdict? p (dataBytes calls) (codeBytes calls) = some r.1 ∧
        (∃ n, codeAddresses calls = codePath p.codePage p.pc n) ∧
          (∀ trap, r.1 = .error trap →
            ∃ before, calls = before ++ [.notify (.errorTrap trap)] ∧ announcedTraps before = []) ∧
            (r.1 = .ok () → announcedTraps calls = []) := by
  unfold step
  simp only [Attempt.run_bind, Attempt.run_lift, Attempt.run_tryCatch, Attempt.run_throw, Routine.run_fetch,
    Routine.run_notify, fetch_bind, notify_bind, done_bind, ensures_fetch, ensures_bind]
  intro first
  have hform := form_ensures first { p with pc := p.pc + 1 }
  have horder := (inferInstance : ((Form.ofByte first).execute first).Keeps Orderly).ensures
    { p with pc := p.pc + 1 }
  apply (hform.and horder).mono
  rintro calls ⟨result, q⟩ ⟨hverdict, hquiet, n, hn⟩
  have hpath : codeAddresses (.fetch (address p.codePage p.pc) first :: calls) =
      codePath p.codePage p.pc (n + 1) := congrArg (_ :: ·) hn
  cases result with
  | ok value =>
    rw [ensures_done, List.append_nil]
    refine ⟨hverdict, ⟨n + 1, hpath⟩, ?_, fun _ => hquiet⟩
    intro trap h
    cases h
  | error trap =>
    simp only [ensures_notify, ensures_done]
    have hlast (calls : List Call) : codeBytes (calls ++ [.notify (.errorTrap trap)]) = codeBytes calls ∧
        dataBytes (calls ++ [.notify (.errorTrap trap)]) = dataBytes calls ∧
          codeAddresses (calls ++ [.notify (.errorTrap trap)]) = codeAddresses calls := by
      refine ⟨?_, ?_, ?_⟩
      · rw [codeBytes_append]; exact List.append_nil _
      · rw [dataBytes_append]; exact List.append_nil _
      · rw [codeAddresses_append]; exact List.append_nil _
    obtain ⟨hcode, hdata, haddresses⟩ := hlast (.fetch (address p.codePage p.pc) first :: calls)
    rw [← List.cons_append, hcode, hdata, haddresses]
    refine ⟨hverdict, ⟨n + 1, hpath⟩, ?_, ?_⟩
    · intro _ h
      cases h
      exact ⟨_, rfl, hquiet⟩
    · intro h
      cases h

theorem step_verdict {σ : Type} [Host σ] (p : Processor) (host : σ) :
    let calls := (step.run p).transcript host
    let result := ((step.run p).run host).1.1
    verdict? p (dataBytes calls) (codeBytes calls) = some result ∧
      (∃ n, codeAddresses calls = codePath p.codePage p.pc n) ∧
        (∀ trap, result = .error trap →
          ∃ before, calls = before ++ [.notify (.errorTrap trap)] ∧ announcedTraps before = []) ∧
          (result = .ok () → announcedTraps calls = []) :=
  (step_ensures p).transcript host

theorem step_verdict_negative_count :
    let p := Processor.new.setReg 7 0x2000
    let odd := (Memory.filled 0).store 0 #[0x14, 0xFD]
    let even := (Memory.filled 0).store 0 #[0x14, 0xFC]
    ((step.run p).run odd).1.1 = .error (.misalignedStack 0x1FFF) ∧
      announcedTraps ((step.run p).transcript odd) = [.misalignedStack 0x1FFF] ∧
      ((step.run p).run even).1.1 = .ok () ∧ announcedTraps ((step.run p).transcript even) = [] := by
  intro p odd even
  obtain ⟨hverdict, -, htrap, -⟩ := step_verdict p odd
  obtain ⟨hverdict', -, -, hquiet⟩ := step_verdict p even
  have hodd : ((step.run p).run odd).1.1 = .error (.misalignedStack 0x1FFF) :=
    Option.some.inj (hverdict.symm.trans (by decide +kernel))
  have heven : ((step.run p).run even).1.1 = .ok () := Option.some.inj (hverdict'.symm.trans (by decide +kernel))
  obtain ⟨before, hcalls, hbefore⟩ := htrap _ hodd
  refine ⟨hodd, ?_, heven, hquiet heven⟩
  rw [hcalls, announcedTraps_append, hbefore]
  rfl

end Microcontroller.Instruction
