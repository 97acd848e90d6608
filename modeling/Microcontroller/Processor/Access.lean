import Microcontroller.Processor.Routine

namespace Microcontroller.Routine

def readWord (a : Address) : Routine Word := do
  let high ← readByte (evenAddress a)
  let low ← readByte (oddAddress a)
  return wordOf high low

def writeWord (a : Address) (value : Word) : Routine Unit := do
  writeByte (evenAddress a) (highByte value)
  writeByte (oddAddress a) (lowByte value)

@[simp] theorem run_readWord (a : Address) (p : Processor) :
    (readWord a).run p =
      .read (evenAddress a) fun high => .read (oddAddress a) fun low => .done (wordOf high low, p) := rfl

@[simp] theorem run_writeWord (a : Address) (value : Word) (p : Processor) :
    (writeWord a value).run p =
      .write (evenAddress a) (highByte value) (.write (oddAddress a) (lowByte value) (.done ((), p))) := rfl

def raise (fault : Interrupt.Fault) : Routine Unit := notify (.fault fault)

/-- A word access through an odd offset raises an address error and then goes on. -/
def checkAlignment (offset : Word) : Routine Unit := do
  if offset.getLsbD 0 then raise .addressError

theorem run_checkAlignment (offset : Word) (p : Processor) :
    (checkAlignment offset).run p =
      if offset.getLsbD 0 then .notify (.fault .addressError) (.done ((), p)) else .done ((), p) := by
  unfold checkAlignment
  split <;> rfl

def fetchWord : Routine Word := do
  let high ← fetch
  let low ← fetch
  return wordOf high low

@[simp] theorem run_fetchWord (p : Processor) :
    fetchWord.run p =
      .fetch (address p.codePage p.pc) fun high => .fetch (address p.codePage (p.pc + 1)) fun low =>
        .done (wordOf high low, { p with pc := p.pc + 1 + 1 }) := rfl

def fetchDisplacement : Routine Word := return displacement (← fetch)

@[simp] theorem run_fetchDisplacement (p : Processor) :
    fetchDisplacement.run p =
      .fetch (address p.codePage p.pc) fun byte =>
        .done (displacement byte, { p with pc := p.pc + 1 }) := rfl

def fetchImmediate : Size → Routine Word
  | .byte => return (← fetch).setWidth 16
  | .word => fetchWord

def fetchShortOffset : Routine Word := do
  let p ← get
  return wordOf p.base (← fetch)

end Microcontroller.Routine
