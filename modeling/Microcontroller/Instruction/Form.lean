import Microcontroller.Instruction.GeneralForm
import Microcontroller.Instruction.Linkage
import Microcontroller.Instruction.Short

namespace Microcontroller

inductive Form where
  | noOperation
  | jumpGroup
  | loadMultiple
  | callPage
  | general
  | softwareTrap
  | returnFromException
  | callRelative
  | storeMultiple
  | jumpPage
  | returnAndDrop
  | call
  | returnFromCall
  | sleep
  | branch
  | compareImmediate
  | moveByte
  | moveWord
  | loadShort
  | storeShort
  | moveFrame
  | unassigned
  deriving DecidableEq

namespace Form

structure Entry where
  mnemonic : String
  form : Form
  deriving DecidableEq

def control : Vector Entry 32 :=
  #v[⟨"NOP", .noOperation⟩,
    ⟨"SCB/F", .jumpGroup⟩,
    ⟨"LDM", .loadMultiple⟩,
    ⟨"PJSR", .callPage⟩,
    ⟨"GENERAL", .general⟩,
    ⟨"GENERAL", .general⟩,
    ⟨"SCB/EQ", .jumpGroup⟩,
    ⟨"SCB/NE", .jumpGroup⟩,
    ⟨"TRAPA", .softwareTrap⟩,
    ⟨"UNIMPL", .unassigned⟩,
    ⟨"RTE", .returnFromException⟩,
    ⟨"UNIMPL", .unassigned⟩,
    ⟨"GENERAL", .general⟩,
    ⟨"GENERAL", .general⟩,
    ⟨"BSR", .callRelative⟩,
    ⟨"UNIMPL", .unassigned⟩,
    ⟨"JMP", .jumpGroup⟩,
    ⟨"JMP/JSR @Rn", .jumpGroup⟩,
    ⟨"STM", .storeMultiple⟩,
    ⟨"PJMP", .jumpPage⟩,
    ⟨"RTD", .returnAndDrop⟩,
    ⟨"GENERAL", .general⟩,
    ⟨"UNIMPL", .unassigned⟩,
    ⟨"UNIMPL", .unassigned⟩,
    ⟨"JSR", .call⟩,
    ⟨"RTS", .returnFromCall⟩,
    ⟨"SLEEP", .sleep⟩,
    ⟨"UNIMPL", .unassigned⟩,
    ⟨"RTD", .returnAndDrop⟩,
    ⟨"GENERAL", .general⟩,
    ⟨"BSR", .callRelative⟩,
    ⟨"UNIMPL", .unassigned⟩]

def entry (byte : Byte) : Entry :=
  if h : byte.toNat < 0x20 then control[byte.toNat]
  else if byte < 0x40 then ⟨(Condition.ofByte byte).mnemonic, .branch⟩
  else if byte < 0x50 then ⟨"CMP", .compareImmediate⟩
  else if byte < 0x58 then ⟨"MOV:E", .moveByte⟩
  else if byte < 0x60 then ⟨"MOV:I", .moveWord⟩
  else if byte < 0x70 then ⟨"MOV:L", .loadShort⟩
  else if byte < 0x80 then ⟨"MOV:S", .storeShort⟩
  else if byte < 0xA0 then ⟨"MOV:F", .moveFrame⟩
  else ⟨"GENERAL", .general⟩

def ofByte (byte : Byte) : Form := (entry byte).form

def execute (form : Form) (byte : Byte) : Attempt Unit :=
  match form with
  | .noOperation => pure ()
  | .jumpGroup => Instruction.jumpGroup byte
  | .loadMultiple => Instruction.loadMultiple
  | .callPage => Instruction.callPage
  | .general => do (← GeneralForm.decode byte).execute
  | .softwareTrap => Instruction.softwareTrap byte
  | .returnFromException => Instruction.returnFromException
  | .callRelative => Instruction.callRelative byte
  | .storeMultiple => Instruction.storeMultiple
  | .jumpPage => Instruction.jumpPage
  | .returnAndDrop => Instruction.returnAndDrop byte
  | .call => Instruction.call
  | .returnFromCall => Instruction.returnFromCall
  | .sleep => Instruction.sleep
  | .branch => Instruction.branchConditionally byte
  | .compareImmediate => Instruction.compareImmediate byte
  | .moveByte => Instruction.moveByte byte
  | .moveWord => Instruction.moveWord byte
  | .loadShort => Instruction.loadShort byte
  | .storeShort => Instruction.storeShort byte
  | .moveFrame => Instruction.moveFrame byte
  | .unassigned => throw (.unimplemented byte)

end Form

end Microcontroller
