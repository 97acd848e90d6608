import Microcontroller.Processor.Stack
import Microcontroller.Proofs.Memory.Words

namespace Microcontroller.Routine

open Processor (stackPointer)

def warned {α : Type} (p : Processor) (x : Dialogue α) : Dialogue α :=
  if (p.reg stackPointer).getLsbD 0 then .notify (.fault .addressError) x else x

def warnings (p : Processor) : List Interrupt.Notice :=
  if (p.reg stackPointer).getLsbD 0 then [.fault .addressError] else []

section Warned

variable {α β : Type} (p : Processor) (x : Dialogue α) (m : Memory)

theorem warned_bind (f : α → Dialogue β) : (warned p x).bind f = warned p (x.bind f) := by
  unfold warned
  split <;> rfl

theorem run_warned : (warned p x).run m = x.run m := by
  unfold warned
  split <;> rfl

theorem notices_warned : notices ((warned p x).transcript m) = warnings p ++ notices (x.transcript m) := by
  unfold warned warnings
  split <;> rfl

theorem writtenAddresses_warned :
    writtenAddresses ((warned p x).transcript m) = writtenAddresses (x.transcript m) := by
  unfold warned
  split <;> rfl

end Warned

theorem run_push (value : Word) (p : Processor) :
    let below := p.reg stackPointer - 2
    (push value).run p =
      warned p (.write (evenAddress (address 0 below)) (highByte value)
        (.write (oddAddress (address 0 below)) (lowByte value) (.done ((), p.setReg stackPointer below)))) := by
  simp only [push, run_bind, run_get, run_checkAlignment, Dialogue.done_bind, warned]
  split <;> rfl

theorem run_pop (p : Processor) :
    let top := p.reg stackPointer
    pop.run p =
      warned p (.read (evenAddress (address 0 top)) fun high => .read (oddAddress (address 0 top)) fun low =>
        .done (wordOf high low, p.setReg stackPointer (top + 2))) := by
  simp only [pop, run_bind, run_get, run_checkAlignment, Dialogue.done_bind, warned]
  split <;> rfl

end Microcontroller.Routine
