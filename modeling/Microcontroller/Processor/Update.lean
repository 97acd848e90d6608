import Microcontroller.Processor.Routine

namespace Microcontroller.Routine

def branch (offset : Word) : Routine Unit := modify fun p => { p with pc := p.pc + offset }

def jump (target : Word) : Routine Unit := modify fun p => { p with pc := target }

def jumpToPage (page : Byte) (target : Word) : Routine Unit :=
  modify fun p => { p with pc := target, codePage := page }

def updateStatus (f : Status → Status) : Routine Unit := modify (·.updateStatus f)

def setCodes (negative zero overflow carry : Bool) : Routine Unit :=
  updateStatus (·.withCodes { negative, zero, overflow, carry })

def report (value : Long) (size : Size) : Routine Unit := updateStatus (·.withResult value size)

def setReg (r : Register) (value : Word) : Routine Unit := modify (·.setReg r value)

def store (r : Register) (value : Long) (size : Size) : Routine Unit := modify (·.store r value size)

def conclude (outcome : Arithmetic.Outcome) : Routine Long := do
  updateStatus (·.withCodes outcome.codes)
  return outcome.value

def holdInterrupts : Routine Unit := modify fun p => { p with holdsInterrupts := true }

@[simp] theorem run_branch (offset : Word) (p : Processor) :
    (branch offset).run p = .done ((), { p with pc := p.pc + offset }) := rfl

@[simp] theorem run_jump (target : Word) (p : Processor) :
    (jump target).run p = .done ((), { p with pc := target }) := rfl

@[simp] theorem run_jumpToPage (page : Byte) (target : Word) (p : Processor) :
    (jumpToPage page target).run p = .done ((), { p with pc := target, codePage := page }) := rfl

@[simp] theorem run_updateStatus (f : Status → Status) (p : Processor) :
    (updateStatus f).run p = .done ((), p.updateStatus f) := rfl

@[simp] theorem run_report (value : Long) (size : Size) (p : Processor) :
    (report value size).run p = .done ((), p.updateStatus (·.withResult value size)) := rfl

@[simp] theorem run_setReg (r : Register) (value : Word) (p : Processor) :
    (setReg r value).run p = .done ((), p.setReg r value) := rfl

@[simp] theorem run_store (r : Register) (value : Long) (size : Size) (p : Processor) :
    (store r value size).run p = .done ((), p.store r value size) := rfl

@[simp] theorem run_conclude (outcome : Arithmetic.Outcome) (p : Processor) :
    (conclude outcome).run p = .done (outcome.value, p.updateStatus (·.withCodes outcome.codes)) := rfl

end Microcontroller.Routine
