import Microcontroller.Operand.AddressingMode
import Microcontroller.Operation.Table

namespace Microcontroller

structure GeneralForm where
  operand : Operand
  index : Byte
  sub : Register
  deriving DecidableEq

namespace GeneralForm

open Routine

def decode (mode : Byte) : Routine GeneralForm := do
  let size := Size.field mode
  let place ← (AddressingMode.ofByte mode).resolve size
  let first ← fetch
  let extended := first == 0
  let code ← if extended then fetch else pure first
  return { operand := { place, size, extended }, index := code >>> 3, sub := registerField code }

def slot (form : GeneralForm) : Fin 32 := (form.index.setWidth 5).toFin

def execute (form : GeneralForm) : Attempt Unit :=
  (Operation.ofSlot form.slot).execute form.operand form.index form.sub

end GeneralForm

end Microcontroller
