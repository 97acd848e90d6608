import Microcontroller.Machine
import Microcontroller.Proofs.Dialogue.Transcript
import Microcontroller.Proofs.Instruction.Grammar
import Microcontroller.Proofs.Instruction.OperationEndings
import Microcontroller.Proofs.Instruction.OperandDecoding
import Microcontroller.Proofs.Instruction.FormVerdict
import Microcontroller.Proofs.Instruction.Conduct
import Microcontroller.Proofs.Instruction.StepVerdict
import Microcontroller.Proofs.Dialogue.Frame
import Microcontroller.Proofs.Instruction.Twins
import Microcontroller.Proofs.Instruction.Encoding
import Microcontroller.Proofs.Instruction.EncodingAgreement
import Microcontroller.Proofs.Timer.CounterFlags
import Microcontroller.Proofs.Timer.Moves
import Microcontroller.Proofs.Timer.Touches
import Microcontroller.Proofs.Timer.Flags
import Microcontroller.Proofs.Timer.FlagProtocol
import Microcontroller.Proofs.Interrupt.LineView
import Microcontroller.Proofs.Timer.LineLevels
import Microcontroller.Proofs.Timer.CatchUp
import Microcontroller.Proofs.Timer.CounterSteps
import Microcontroller.Proofs.Timer.BlockSteps
import Microcontroller.Proofs.Timer.Prescaler
import Microcontroller.Proofs.Timer.FreeRunning
import Microcontroller.Proofs.Timer.CompareClear
import Microcontroller.Proofs.Memory.Words
import Microcontroller.Proofs.Processor.StackAccess
import Microcontroller.Proofs.Processor.StackDiscipline
import Microcontroller.Proofs.Arithmetic.ExactCodes
import Microcontroller.Proofs.Arithmetic.Comparison
import Microcontroller.Proofs.Processor.StatusFlags
import Microcontroller.Proofs.Arithmetic.Limbs
import Microcontroller.Proofs.Operation.ExtendedArithmetic
import Microcontroller.Proofs.Operation.LongArithmetic
import Microcontroller.Proofs.Instruction.References
import Microcontroller.Proofs.Instruction.CompareBranch
import Microcontroller.Proofs.Instruction.RegisterLists
import Microcontroller.Proofs.Instruction.Calls
import Microcontroller.Proofs.Instruction.CallLinkage
import Microcontroller.Proofs.Board.TimerWindow
import Microcontroller.Proofs.Timer.SharedLatch
import Microcontroller.Proofs.Instruction.SavedRegisters
import Microcontroller.Proofs.Instruction.Lengths
import Microcontroller.Proofs.Instruction.Sequence
import Microcontroller.Proofs.Instruction.OperationTraps
import Microcontroller.Proofs.Instruction.TrapAftermath
import Microcontroller.Proofs.Board.StatusRegister
import Microcontroller.Proofs.Timer.BlockView
import Microcontroller.Proofs.Timer.NonInterference
import Microcontroller.Proofs.Instruction.ControlState
import Microcontroller.Proofs.Dialogue.Actions
import Microcontroller.Proofs.Instruction.OperandActions
import Microcontroller.Proofs.Instruction.StackActions
import Microcontroller.Proofs.Instruction.StepActions
import Microcontroller.Proofs.Instruction.AccessPages
import Microcontroller.Proofs.Board.Revisions
import Microcontroller.Proofs.Operation.Destinations
import Microcontroller.Proofs.Operation.RegisterFrame
import Microcontroller.Proofs.Instruction.Selection
import Microcontroller.Proofs.Instruction.GeneralFrame
import Microcontroller.Proofs.Operation.FlagUse
import Microcontroller.Proofs.Instruction.StatusFrame
import Microcontroller.Proofs.Arithmetic.ExactOutcomes
import Microcontroller.Proofs.Instruction.ModeTable
import Microcontroller.Proofs.Operand.WriteRead
import Microcontroller.Proofs.Operation.Division
import Microcontroller.Proofs.Operation.Multiplication
import Microcontroller.Proofs.Arithmetic.Rotation
import Microcontroller.Proofs.Operand.Update
import Microcontroller.Proofs.Operation.ShiftPlaces
import Microcontroller.Proofs.Operation.RepeatedShifts
import Microcontroller.Proofs.Operation.SingleBits
import Microcontroller.Proofs.Operation.ControlBank
import Microcontroller.Proofs.Instruction.CountingProgram
import Microcontroller.Proofs.Interrupt.LineHistory
import Microcontroller.Proofs.Timer.ClockLoop
