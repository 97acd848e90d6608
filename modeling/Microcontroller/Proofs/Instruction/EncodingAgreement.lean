import Microcontroller.Proofs.Dialogue.Frame
import Microcontroller.Proofs.Instruction.CodeOrder
import Microcontroller.Proofs.Instruction.Twins

namespace Microcontroller.Twin

open Conduct Dialogue Memory Processor Routine

theorem effect_run (twin : Twin) (p : Processor) (next pc : Word) :
    (twin.effect next).run { p with pc := pc } =
      ((twin.effect next).run p).bind fun r => .done ((), { r.2 with pc := pc }) := by
  cases twin with
  | moveByte r data => rfl
  | moveWord r data => rfl
  | compareByte r data => rfl
  | compareWord r data => rfl
  | load size r low =>
    cases size with
    | byte => rfl
    | word =>
      simp only [effect, Operand.load, Operand.read, Routine.run_bind, Routine.run_get, run_checkAlignment, done_bind]
      split <;> rfl
  | store size r low =>
    cases size with
    | byte => rfl
    | word =>
      simp only [effect, Operand.assign, Operand.write, Routine.run_bind, Routine.run_get, run_checkAlignment, done_bind]
      split <;> rfl
  | branch condition offset => rfl
  | call offset =>
    have hreg (r : Register) : Processor.reg { p with pc := pc } r = p.reg r := rfl
    simp only [effect, push, Routine.run_bind, Routine.run_get, run_checkAlignment, done_bind, hreg]
    split <;> rfl

def stepFrom (twin : Twin) (p : Processor) (next : Word) : Dialogue (Except Trap Unit × Processor) :=
  ((twin.effect next).run p).bind fun r => .done (.ok (), { r.2 with pc := next + twin.displacement p })

theorem completed_routine (twin : Twin) (p : Processor) (next : Word) :
    completed (twin.routine.run { p with pc := next }) = twin.stepFrom p next := by
  have hdisplacement : twin.displacement { p with pc := next } = twin.displacement p := by
    cases twin <;> rfl
  rw [routine, Routine.run_bind, Routine.run_get, done_bind, Routine.run_bind, effect_run, completed, hdisplacement,
    Dialogue.bind_assoc, Dialogue.bind_assoc]
  rfl

theorem short_step (twin : Twin) (p : Processor) :
    Takes p.codePage p.pc twin.short (Instruction.step.run p)
      (twin.stepFrom p (p.pc + BitVec.ofNat 16 twin.short.length)) := by
  rw [← completed_routine, ← advance_eq]
  exact twin.short_takes p

theorem long_step (twin : Twin) (p : Processor) :
    Takes p.codePage p.pc twin.long (Instruction.step.run p)
      (twin.stepFrom p (p.pc + BitVec.ofNat 16 twin.long.length)) := by
  rw [← completed_routine, ← advance_eq]
  exact twin.long_takes p

instance (twin : Twin) (next : Word) : (twin.effect next).Keeps Settled := by
  cases twin <;> (unfold effect Operand.load Operand.compare Operand.assign; infer_instance)

def isCall (twin : Twin) : Bool := twin matches .call _

def codeArea (twin : Twin) (p : Processor) : List Address :=
  codePath p.codePage p.pc twin.short.length ++ codePath p.codePage p.pc twin.long.length

theorem call_effect (offset : Byte) (p : Processor) (next : Word) (m : Memory) :
    ((((call offset).effect next).run p).run m).1.2 =
      p.setReg stackPointer (p.reg stackPointer - 2) := by
  simp only [effect, push, Routine.run_bind, Routine.run_get, run_checkAlignment, done_bind]
  split <;> rfl

theorem effect_agree (twin : Twin) (p : Processor) (next next' : Word) {m m' : Memory} {area : List Address}
    (hagree : AgreeOutside area m m') (havoid : Avoids area (((twin.effect next).run p).transcript m)) :
    (((twin.effect next).run p).run m).1.2 = (((twin.effect next').run p).run m').1.2 ∧
      (twin.isCall = false →
        ((twin.effect next).run p).transcript m = ((twin.effect next').run p).transcript m' ∧
          AgreeOutside area (((twin.effect next).run p).run m).2 (((twin.effect next').run p).run m').2) := by
  cases hcall : twin.isCall with
  | true =>
    cases twin with
    | call offset =>
      rw [call_effect, call_effect]
      exact ⟨rfl, nofun⟩
    | _ => exact absurd hcall nofun
  | false =>
    have hnext : twin.effect next = twin.effect next' := by
      cases twin with
      | call offset => exact absurd hcall nofun
      | _ => rfl
    rw [← hnext]
    have hfetch := (((inferInstance : (twin.effect next).Keeps Settled).ensures p).transcript m).2
    obtain ⟨hvalue, hcalls, hmemory⟩ := run_agree ((twin.effect next).run p) hagree hfetch havoid
    exact ⟨congrArg Prod.snd hvalue, fun _ => ⟨hcalls, hmemory⟩⟩

theorem traffic_stepFrom (twin : Twin) (p : Processor) (next : Word) (m : Memory) :
    (twin.stepFrom p next).transcript m = ((twin.effect next).run p).transcript m := by
  rw [stepFrom, transcript_bind]
  exact List.append_nil _

theorem run_stepFrom (twin : Twin) (p : Processor) (next : Word) (m : Memory) :
    (twin.stepFrom p next).run m =
      ((.ok (), { (((twin.effect next).run p).run m).1.2 with pc := next + twin.displacement p }),
        (((twin.effect next).run p).run m).2) := by
  rw [stepFrom, Dialogue.run_bind]
  rfl

theorem encodings_agree (twin : Twin) (p : Processor) (m m' : Memory)
    (hshort : m.Holds p.codePage p.pc twin.short) (hlong : m'.Holds p.codePage p.pc twin.long)
    (hagree : AgreeOutside (twin.codeArea p) m m')
    (havoid : Avoids (twin.codeArea p) ((Instruction.step.run p).transcript m)) :
    let step := Instruction.step.run p
    (step.run m).1.1 = .ok () ∧ (step.run m').1.1 = .ok () ∧
      (step.run m).1.2.pc = p.pc + BitVec.ofNat 16 twin.short.length + twin.displacement p ∧
        (step.run m').1.2.pc = p.pc + BitVec.ofNat 16 twin.long.length + twin.displacement p ∧
          (step.run m').1.2 = { (step.run m).1.2 with pc := (step.run m').1.2.pc } ∧
            (twin.isCall = false →
              traffic (step.transcript m) = traffic (step.transcript m') ∧
                AgreeOutside (twin.codeArea p) (step.run m).2 (step.run m').2) := by
  intro step
  have htraffic := (twin.short_step p).traffic_eq hshort
  have htraffic' := (twin.long_step p).traffic_eq hlong
  rw [traffic_stepFrom] at htraffic htraffic'
  rw [Avoids, ← dataAddresses_traffic, htraffic, dataAddresses_traffic] at havoid
  obtain ⟨hprocessor, hdata⟩ := twin.effect_agree p (p.pc + BitVec.ofNat 16 twin.short.length)
    (p.pc + BitVec.ofNat 16 twin.long.length) hagree havoid
  have hrun : step.run m = _ := ((twin.short_step p).run_eq hshort).trans (run_stepFrom _ _ _ _)
  have hrun' : step.run m' = _ := ((twin.long_step p).run_eq hlong).trans (run_stepFrom _ _ _ _)
  rw [hrun, hrun', hprocessor]
  refine ⟨rfl, rfl, rfl, rfl, rfl, fun hcall => ?_⟩
  obtain ⟨hcalls, hmemory⟩ := hdata hcall
  exact ⟨htraffic.trans ((congrArg traffic hcalls).trans htraffic'.symm), hmemory⟩

theorem encodings_agree_load_and_branch :
    let p : Processor := { Processor.new with base := 0x01 }
    let load : Twin := .load .word 3 0x41
    let m := ((filled 0).write 0 0x6B).write 1 0x41
    let m' := (((filled 0).write 0 0x0D).write 1 0x41).write 2 0x83
    let back : Twin := .branch 0 0xF8
    let n := ((filled 0).write 0 0x20).write 1 0xF8
    let n' := (((filled 0).write 0 0x30).write 1 0xFF).write 2 0xF8
    (m.Holds p.codePage p.pc load.short ∧ m'.Holds p.codePage p.pc load.long ∧
        AgreeOutside (load.codeArea p) m m' ∧ Avoids (load.codeArea p) ((Instruction.step.run p).transcript m) ∧
        ((Instruction.step.run p).run m').1.2.pc = 3) ∧
      n.Holds p.codePage p.pc back.short ∧ n'.Holds p.codePage p.pc back.long ∧
        AgreeOutside (back.codeArea p) n n' ∧ Avoids (back.codeArea p) ((Instruction.step.run p).transcript n) ∧
        ((Instruction.step.run p).run n).1.2.pc = 0xFFFA ∧ ((Instruction.step.run p).run n').1.2.pc = 0xFFFB := by
  intro p load m m' back n n'
  have harea : load.codeArea p = [0, 1, 0, 1, 2] ∧ back.codeArea p = [0, 1, 0, 1, 2] := by decide
  have hwritten (first second first' second' third : Byte) : AgreeOutside [0, 1, 0, 1, 2]
      (((filled 0).write 0 first).write 1 second) ((((filled 0).write 0 first').write 1 second').write 2 third) := by
    intro a ha
    simp only [List.mem_cons, List.not_mem_nil, or_false, not_or] at ha
    obtain ⟨h₀, h₁, -, -, h₂⟩ := ha
    simp only [read_write, h₀, h₁, h₂, if_false]
  have hshort : m.Holds p.codePage p.pc load.short := by decide
  have hlong : m'.Holds p.codePage p.pc load.long := by decide
  have hagree : AgreeOutside (load.codeArea p) m m' := harea.1 ▸ hwritten _ _ _ _ _
  have hdata : dataAddresses ((Instruction.step.run p).transcript m) = [0x0140, 0x0141] := by decide +kernel
  have havoid : Avoids (load.codeArea p) ((Instruction.step.run p).transcript m) := by
    intro a ha
    rw [hdata] at ha
    rw [harea.1]
    simp only [List.mem_cons, List.not_mem_nil, or_false] at ha
    rcases ha with rfl | rfl <;> decide
  have hshort' : n.Holds p.codePage p.pc back.short := by decide
  have hlong' : n'.Holds p.codePage p.pc back.long := by decide
  have hagree' : AgreeOutside (back.codeArea p) n n' := harea.2 ▸ hwritten _ _ _ _ _
  have hnone : dataAddresses ((Instruction.step.run p).transcript n) = [] := by decide +kernel
  have havoid' : Avoids (back.codeArea p) ((Instruction.step.run p).transcript n) := by
    intro a ha
    rw [hnone] at ha
    cases ha
  obtain ⟨-, -, -, hloaded, -, -⟩ := encodings_agree load p m m' hshort hlong hagree havoid
  obtain ⟨-, -, hpc, hpc', -, -⟩ := encodings_agree back p n n' hshort' hlong' hagree' havoid'
  exact ⟨⟨hshort, hlong, hagree, havoid, hloaded⟩, hshort', hlong', hagree', havoid', hpc.trans (by decide),
    hpc'.trans (by decide)⟩

end Microcontroller.Twin
