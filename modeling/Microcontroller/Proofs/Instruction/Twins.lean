import Microcontroller.Proofs.Instruction.Encoding
import Microcontroller.Proofs.Instruction.ShortForms

namespace Microcontroller

open Dialogue Processor Routine

inductive Twin where
  | moveByte (r : Register) (data : Byte)
  | moveWord (r : Register) (data : Word)
  | compareByte (r : Register) (data : Byte)
  | compareWord (r : Register) (data : Word)
  | load (size : Size) (r : Register) (low : Byte)
  | store (size : Size) (r : Register) (low : Byte)
  | branch (condition : BitVec 4) (offset : Byte)
  | call (offset : Byte)
  deriving DecidableEq

namespace Twin

def withRegister (code : Byte) (r : Register) : Byte := code + BitVec.ofNat 8 r.val

def withSize (code : Byte) : Size → Byte
  | .byte => code
  | .word => code + 8

def wordCode (word : Word) : List Byte := [highByte word, lowByte word]

def short : Twin → List Byte
  | moveByte r data => [withRegister 0x50 r, data]
  | moveWord r data => withRegister 0x58 r :: wordCode data
  | compareByte r data => [withRegister 0x40 r, data]
  | compareWord r data => withRegister 0x48 r :: wordCode data
  | load size r low => [withRegister (withSize 0x60 size) r, low]
  | store size r low => [withRegister (withSize 0x70 size) r, low]
  | branch condition offset => [0x2#4 ++ condition, offset]
  | call offset => [0x0E, offset]

def long : Twin → List Byte
  | moveByte r data => [0x04, data, withRegister 0x80 r]
  | moveWord r data => 0x0C :: wordCode data ++ [withRegister 0x80 r]
  | compareByte r data => [0x04, data, withRegister 0x70 r]
  | compareWord r data => 0x0C :: wordCode data ++ [withRegister 0x70 r]
  | load size r low => [withSize 0x05 size, low, withRegister 0x80 r]
  | store size r low => [withSize 0x05 size, low, withRegister 0x90 r]
  | branch condition offset => (0x3#4 ++ condition) :: wordCode (offset.signExtend 16)
  | call offset => 0x1E :: wordCode (offset.signExtend 16)

def effect (twin : Twin) (next : Word) : Routine Unit :=
  match twin with
  | moveByte r data => Operand.load ⟨.immediate (data.setWidth 16), .byte, false⟩ r
  | moveWord r data => Operand.load ⟨.immediate data, .word, false⟩ r
  | compareByte r data => Operand.compare ⟨.immediate (data.setWidth 16), .byte, false⟩ r
  | compareWord r data => Operand.compare ⟨.immediate data, .word, false⟩ r
  | load size r low => do Operand.load ⟨.memory 0 (wordOf (← get).base low), size, false⟩ r
  | store size r low => do
    let p ← get
    Operand.assign ⟨.memory 0 (wordOf p.base low), size, false⟩ (p.long r)
  | branch _ _ => pure ()
  | call _ => push next

def displacement (twin : Twin) (p : Processor) : Word :=
  match twin with
  | branch condition offset =>
    if (Condition.byCode[condition.toNat]).holds p.status.codes then offset.signExtend 16 else 0
  | call offset => offset.signExtend 16
  | _ => 0

def routine (twin : Twin) : Routine Unit := do
  let p ← get
  twin.effect p.pc
  Routine.branch (twin.displacement p)

theorem branch_zero : Routine.branch 0 = pure () := by
  ext p
  simp

theorem routine_eq (twin : Twin) (h : ∀ p, twin.displacement p = 0) :
    twin.routine = get >>= fun p => twin.effect p.pc := by
  simp only [routine, h, branch_zero, bind_pure_unit]

theorem short_takes (twin : Twin) (p : Processor) :
    Takes p.codePage p.pc twin.short (Instruction.step.run p)
      (completed (twin.routine.run { p with pc := advance p.pc twin.short.length })) := by
  cases twin with
  | moveByte r data =>
    have hform : Form.ofByte (withRegister 0x50 r) = .moveByte := by decide +revert
    have hr : registerField (withRegister 0x50 r) = r := by decide +revert
    apply Instruction.step_takes rfl
    rw [hform, Form.execute, Instruction.moveByte_eq, hr, run_liftM]
    apply Takes.bind
    rw [run_bind, run_fetch, fetch_bind, takes_fetch, takes_nil, routine]
    simp only [displacement, branch_zero, bind_pure_unit]
    rfl
  | moveWord r data =>
    have hform : Form.ofByte (withRegister 0x58 r) = .moveWord := by decide +revert
    have hr : registerField (withRegister 0x58 r) = r := by decide +revert
    apply Instruction.step_takes rfl
    rw [hform, Form.execute, Instruction.moveWord_eq, hr, run_liftM]
    apply Takes.bind
    simp only [run_bind, run_fetchWord, fetch_bind, done_bind, wordCode, takes_fetch, takes_nil, wordOf_bytes, routine,
      displacement, branch_zero, bind_pure_unit]
    rfl
  | compareByte r data =>
    have hform : Form.ofByte (withRegister 0x40 r) = .compareImmediate := by decide +revert
    have hr : registerField (withRegister 0x40 r) = r := by decide +revert
    have hsize : Size.field (withRegister 0x40 r) = .byte := by decide +revert
    apply Instruction.step_takes rfl
    rw [hform, Form.execute, Instruction.compareImmediate_eq, hr, hsize, run_liftM]
    apply Takes.bind
    simp only [fetchImmediate, run_bind, run_fetch, fetch_bind, done_bind, run_pure, takes_fetch, takes_nil, routine,
      displacement, branch_zero, bind_pure_unit]
    rfl
  | compareWord r data =>
    have hform : Form.ofByte (withRegister 0x48 r) = .compareImmediate := by decide +revert
    have hr : registerField (withRegister 0x48 r) = r := by decide +revert
    have hsize : Size.field (withRegister 0x48 r) = .word := by decide +revert
    apply Instruction.step_takes rfl
    rw [hform, Form.execute, Instruction.compareImmediate_eq, hr, hsize, run_liftM]
    apply Takes.bind
    simp only [fetchImmediate, run_bind, run_fetchWord, fetch_bind, done_bind, wordCode, takes_fetch, takes_nil,
      wordOf_bytes, routine, displacement, branch_zero, bind_pure_unit]
    rfl
  | load size r low =>
    have hform : Form.ofByte (withRegister (withSize 0x60 size) r) = .loadShort := by cases size <;> decide +revert
    have hr : registerField (withRegister (withSize 0x60 size) r) = r := by cases size <;> decide +revert
    have hsize : Size.field (withRegister (withSize 0x60 size) r) = size := by cases size <;> decide +revert
    apply Instruction.step_takes rfl
    rw [hform, Form.execute, Instruction.loadShort_eq, hr, hsize, run_liftM]
    apply Takes.bind
    simp only [fetchShortOffset, run_bind, run_get, run_fetch, fetch_bind, done_bind, run_pure, takes_fetch,
      takes_nil, routine, displacement, branch_zero, bind_pure_unit]
    rfl
  | store size r low =>
    have hform : Form.ofByte (withRegister (withSize 0x70 size) r) = .storeShort := by cases size <;> decide +revert
    have hr : registerField (withRegister (withSize 0x70 size) r) = r := by cases size <;> decide +revert
    have hsize : Size.field (withRegister (withSize 0x70 size) r) = size := by cases size <;> decide +revert
    apply Instruction.step_takes rfl
    rw [hform, Form.execute, Instruction.storeShort_eq, hr, hsize, run_liftM]
    apply Takes.bind
    simp only [fetchShortOffset, run_bind, run_get, run_fetch, fetch_bind, done_bind, run_pure, takes_fetch,
      takes_nil, routine, displacement, branch_zero, bind_pure_unit]
    rfl
  | branch condition offset =>
    have hform : Form.ofByte (0x2#4 ++ condition) = .branch := by decide +revert
    have hcondition : Condition.ofByte (0x2#4 ++ condition) = Condition.byCode[condition.toNat] := by decide +revert
    have hlong : (0x2#4 ++ condition).getLsbD 4 = false := by decide +revert
    apply Instruction.step_takes rfl
    rw [hform, Form.execute, Instruction.branchConditionally, hcondition, hlong, run_liftM]
    apply Takes.bind
    simp only [Bool.false_eq_true, if_false, run_bind, run_get, run_fetchDisplacement, fetch_bind, done_bind,
      takes_fetch, takes_nil, routine, effect, displacement]
    split
    · rfl
    · rw [branch_zero]
      rfl
  | call offset =>
    apply Instruction.step_takes rfl
    change Takes _ _ _ ((liftM (Instruction.callRelative 0x0E) : Attempt Unit).run _) _
    rw [run_liftM]
    apply Takes.bind
    simp only [Instruction.callRelative, if_true, run_bind, run_get, run_fetchDisplacement, fetch_bind, done_bind,
      takes_fetch, takes_nil, routine, effect, displacement]
    rfl

theorem code_fields (base : Byte) (h : base ∈ ([0x30, 0x70, 0x80, 0x90] : List Byte)) (r : Register) :
    withRegister base r ≠ 0 ∧ withRegister base r >>> 3 = base >>> 3 ∧ registerField (withRegister base r) = r := by
  simp only [List.mem_cons, List.not_mem_nil, or_false] at h
  rcases h with rfl | rfl | rfl | rfl <;> decide +revert

theorem absolute_fields (size : Size) :
    Form.ofByte (withSize 0x05 size) = .general ∧
      AddressingMode.ofByte (withSize 0x05 size) = .shortAbsolute ∧ Size.field (withSize 0x05 size) = size := by
  cases size <;> decide

theorem immediate_takes (p : Processor) (data : Byte) :
    Takes p.codePage (p.pc + 1) [data]
      (((AddressingMode.ofByte 0x04).resolve (Size.field 0x04)).run { p with pc := p.pc + 1 })
      (.done (.immediate (data.setWidth 16), { p with pc := p.pc + 1 + 1 })) :=
  ⟨_, rfl, rfl⟩

theorem wordImmediate_takes (p : Processor) (data : Word) :
    Takes p.codePage (p.pc + 1) (wordCode data)
      (((AddressingMode.ofByte 0x0C).resolve (Size.field 0x0C)).run { p with pc := p.pc + 1 })
      (.done (.immediate data, { p with pc := p.pc + 1 + 1 + 1 })) :=
  (fetchWord_takes { p with pc := p.pc + 1 } data).bind_eq rfl

theorem absolute_takes (p : Processor) (size : Size) (low : Byte) :
    Takes p.codePage (p.pc + 1) [low]
      (((AddressingMode.ofByte (withSize 0x05 size)).resolve (Size.field (withSize 0x05 size))).run
        { p with pc := p.pc + 1 })
      (.done (.memory 0 (wordOf p.base low), { p with pc := p.pc + 1 + 1 })) := by
  rw [(absolute_fields size).2.1]
  exact ⟨_, rfl, rfl⟩

theorem long_takes (twin : Twin) (p : Processor) :
    Takes p.codePage p.pc twin.long (Instruction.step.run p)
      (completed (twin.routine.run { p with pc := advance p.pc twin.long.length })) := by
  cases twin with
  | moveByte r data =>
    obtain ⟨hcode, hindex, hr⟩ := code_fields 0x80 (by decide) r
    rw [routine_eq _ fun _ => rfl]
    exact Instruction.step_takes_general (by decide) (immediate_takes p data) rfl rfl hcode
      (by rw [hindex, hr]; exact GeneralForm.execute_load _ r rfl)
  | moveWord r data =>
    obtain ⟨hcode, hindex, hr⟩ := code_fields 0x80 (by decide) r
    rw [routine_eq _ fun _ => rfl]
    exact Instruction.step_takes_general (by decide) (wordImmediate_takes p data) rfl rfl hcode
      (by rw [hindex, hr]; exact GeneralForm.execute_load _ r rfl)
  | compareByte r data =>
    obtain ⟨hcode, hindex, hr⟩ := code_fields 0x70 (by decide) r
    rw [routine_eq _ fun _ => rfl]
    exact Instruction.step_takes_general (by decide) (immediate_takes p data) rfl rfl hcode
      (by rw [hindex, hr]; exact GeneralForm.execute_compare _ r)
  | compareWord r data =>
    obtain ⟨hcode, hindex, hr⟩ := code_fields 0x70 (by decide) r
    rw [routine_eq _ fun _ => rfl]
    exact Instruction.step_takes_general (by decide) (wordImmediate_takes p data) rfl rfl hcode
      (by rw [hindex, hr]; exact GeneralForm.execute_compare _ r)
  | load size r low =>
    obtain ⟨hcode, hindex, hr⟩ := code_fields 0x80 (by decide) r
    obtain ⟨hform, -, hsize⟩ := absolute_fields size
    rw [routine_eq _ fun _ => rfl]
    have h := Instruction.step_takes_general hform (absolute_takes p size low) rfl rfl hcode
      (by rw [hindex, hr, hsize]; exact GeneralForm.execute_load ⟨.memory 0 (wordOf p.base low), size, false⟩ r rfl)
    exact h
  | store size r low =>
    obtain ⟨hcode, hindex, hr⟩ := code_fields 0x90 (by decide) r
    obtain ⟨hform, -, hsize⟩ := absolute_fields size
    rw [routine_eq _ fun _ => rfl]
    have h := Instruction.step_takes_general hform (absolute_takes p size low) rfl rfl hcode
      (by rw [hindex, hr, hsize]; exact GeneralForm.execute_store 0 (wordOf p.base low) size r)
    exact h
  | branch condition offset =>
    have hform : Form.ofByte (0x3#4 ++ condition) = .branch := by decide +revert
    have hcondition : Condition.ofByte (0x3#4 ++ condition) = Condition.byCode[condition.toNat] := by decide +revert
    have hlong : (0x3#4 ++ condition).getLsbD 4 = true := by decide +revert
    apply Instruction.step_takes rfl
    rw [hform, Form.execute, Instruction.branchConditionally, hcondition, hlong, run_liftM]
    apply Takes.bind
    refine (fetchWord_takes { p with pc := p.pc + 1 } (offset.signExtend 16)).bind_eq ?_
    simp only [done_bind, Routine.run_bind, Routine.run_get, routine, effect, displacement]
    split
    · rfl
    · rw [branch_zero]
      rfl
  | call offset =>
    apply Instruction.step_takes rfl
    change Takes _ _ _ ((liftM (Instruction.callRelative 0x1E) : Attempt Unit).run _) _
    rw [run_liftM]
    apply Takes.bind
    exact (fetchWord_takes { p with pc := p.pc + 1 } (offset.signExtend 16)).bind_eq rfl

end Twin

end Microcontroller
