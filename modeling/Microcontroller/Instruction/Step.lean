import Microcontroller.Instruction.Form

namespace Microcontroller.Instruction

open Routine

def step : Attempt Unit := do
  let byte ← fetch
  tryCatch ((Form.ofByte byte).execute byte) fun trap => do
    notify (.errorTrap trap)
    throw trap

inductive Stop where
  | limit
  | sleep
  | trap (trap : Trap)
  deriving DecidableEq

def runFrom (steps : Nat) : (limit : Nat) → Routine (Nat × Stop)
  | 0 => return (steps, .limit)
  | limit + 1 => do
    if (← get).asleep then return (steps, .sleep)
    match ← step.outcome with
    | .ok _ => runFrom (steps + 1) limit
    | .error trap => return (steps + 1, .trap trap)

def run (limit : Nat) : Routine (Nat × Stop) := runFrom 0 limit

end Microcontroller.Instruction
