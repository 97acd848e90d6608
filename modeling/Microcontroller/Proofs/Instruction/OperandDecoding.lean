import Microcontroller.Proofs.Instruction.Encoding
import Microcontroller.Proofs.Instruction.OperationEndings

namespace Microcontroller

open Grammar Dialogue Processor
open Instruction (operationCode)

def Grammar.stepped (p : Processor) (mode : Byte) : Processor :=
  let r := registerField mode
  let stride : Word := if Size.field mode = .word ∨ r = stackPointer then 2 else 1
  if 0xB0 ≤ mode ∧ mode ≤ 0xBF then p.setReg r (p.reg r - stride)
  else if 0xC0 ≤ mode ∧ mode ≤ 0xCF then p.setReg r (p.reg r + stride)
  else p

def Place.number? (place : Place) (size : Size) (p : Processor) (data : List Byte) : Option Nat :=
  match place with
  | .register r => Grammar.number? size (wordBytes (p.reg r) size)
  | .memory _ _ => Grammar.number? size data
  | .immediate value => some value.toNat

theorem number?_wordBytes (word : Word) (size : Size) :
    Grammar.number? size (wordBytes word size) = some (size.truncate (word.setWidth 32)).toNat := by
  rw [Size.truncate_toNat, BitVec.toNat_setWidth_of_le (by decide)]
  cases size with
  | byte => simp [wordBytes, Grammar.number?, lowByte, Size.mask]
  | word => simp [wordBytes, Grammar.number?, Size.mask, Nat.mod_eq_of_lt word.isLt]

theorem Grammar.number?_le {size : Size} {bytes : List Byte} {n : Nat} (h : number? size bytes = some n) :
    n ≤ size.mask.toNat := by
  unfold number? at h
  split at h
  next byte =>
    obtain rfl := Option.some.inj h
    exact Nat.le_of_lt_succ byte.isLt
  next high low =>
    obtain rfl := Option.some.inj h
    exact Nat.le_of_lt_succ (wordOf high low).isLt
  next => cases h

theorem Operand.read_ensures (operand : Operand) (p : Processor) :
    (operand.read.run p).Ensures fun calls r =>
      operand.place.number? operand.size p (dataBytes calls) = some r.1.toNat ∧ r.2 = p := by
  obtain ⟨place, size, extended⟩ := operand
  match place, size with
  | .register r, size => exact ⟨number?_wordBytes _ _, rfl⟩
  | .memory page offset, .byte =>
    intro byte
    exact ⟨congrArg some (BitVec.toNat_setWidth_of_le (by decide)).symm, rfl⟩
  | .memory page offset, .word =>
    simp only [read, Routine.run_bind, Routine.run_checkAlignment]
    split
    all_goals
      intro high low
      exact ⟨congrArg some (BitVec.toNat_setWidth_of_le (by decide)).symm, rfl⟩
  | .immediate data, size => exact ⟨congrArg some (BitVec.toNat_setWidth_of_le (by decide)).symm, rfl⟩

namespace AddressingMode

def kind : AddressingMode → Kind
  | direct _ => .register
  | immediate => .immediate
  | _ => .memory

def extension : AddressingMode → Size → Nat
  | byteDisplaced _, _ | shortAbsolute, _ | immediate, .byte => 1
  | wordDisplaced _, _ | absolute, _ | immediate, .word => 2
  | _, _ => 0

theorem kind_ofByte (mode : Byte) (h : isMode mode = true) : (ofByte mode).kind = Kind.ofMode mode := by
  decide +revert

theorem extension_ofByte (mode : Byte) (h : isMode mode = true) :
    (ofByte mode).extension (Size.field mode) = Grammar.extension mode := by
  decide +revert

theorem register_ofByte (mode : Byte) (r : Register) (h : ofByte mode = direct r) :
    r = registerField mode := by
  decide +revert

def stepped (mode : AddressingMode) (size : Size) (p : Processor) : Processor :=
  match mode with
  | preDecrement r => p.setReg r (p.reg r - stride r size)
  | postIncrement r => p.setReg r (p.reg r + stride r size)
  | _ => p

theorem stepped_ofByte (mode : Byte) (p : Processor) :
    (ofByte mode).stepped (Size.field mode) p = Grammar.stepped p mode := by
  have hmode : if 0xB0 ≤ mode ∧ mode ≤ 0xBF then ofByte mode = preDecrement (registerField mode)
      else if 0xC0 ≤ mode ∧ mode ≤ 0xCF then ofByte mode = postIncrement (registerField mode)
      else ∀ r, ofByte mode ≠ preDecrement r ∧ ofByte mode ≠ postIncrement r := by
    decide +revert
  unfold Grammar.stepped
  split at hmode
  next h =>
    rw [hmode, if_pos h]
    rfl
  next h =>
    split at hmode
    next h' =>
      rw [hmode, if_neg h, if_pos h']
      rfl
    next h' =>
      rw [if_neg h, if_neg h']
      cases hm : ofByte mode with
      | preDecrement r => exact absurd hm (hmode r).1
      | postIncrement r => exact absurd hm (hmode r).2
      | _ => rfl

open Routine

theorem resolve_ensures (mode : AddressingMode) (size : Size) (p : Processor) :
    ((mode.resolve size).run p).Ensures fun calls r =>
      traffic calls = [] ∧ r.2 = { mode.stepped size p with pc := r.2.pc } ∧
        (codeBytes calls).length = mode.extension size ∧ r.1.kind = mode.kind ∧
        (∀ value, r.1 = .immediate value → Grammar.number? size (codeBytes calls) = some value.toNat) ∧
        ∀ r', r.1 = .register r' → mode = direct r' ∧ r.2 = p := by
  cases mode with
  | direct r => exact ⟨rfl, rfl, rfl, rfl, nofun, fun r' h => ⟨congrArg direct (Place.register.inj h), rfl⟩⟩
  | indirect r => exact ⟨rfl, rfl, rfl, rfl, nofun, nofun⟩
  | byteDisplaced r => exact fun _ => ⟨rfl, rfl, rfl, rfl, nofun, nofun⟩
  | wordDisplaced r => exact fun _ _ => ⟨rfl, rfl, rfl, rfl, nofun, nofun⟩
  | preDecrement r => exact ⟨rfl, rfl, rfl, rfl, nofun, nofun⟩
  | postIncrement r => exact ⟨rfl, rfl, rfl, rfl, nofun, nofun⟩
  | shortAbsolute => exact fun _ => ⟨rfl, rfl, rfl, rfl, nofun, nofun⟩
  | absolute => exact fun _ _ => ⟨rfl, rfl, rfl, rfl, nofun, nofun⟩
  | immediate =>
    cases size with
    | byte =>
      intro byte
      refine ⟨rfl, rfl, rfl, rfl, ?_, nofun⟩
      rintro value ⟨rfl⟩
      exact congrArg some (BitVec.toNat_setWidth_of_le (by decide)).symm
    | word =>
      intro high low
      refine ⟨rfl, rfl, rfl, rfl, ?_, nofun⟩
      rintro value ⟨rfl⟩
      rfl

end AddressingMode

namespace GeneralForm

open Routine

/-- What a mode byte is decoded to: it takes the mode's own bytes and the operation byte, and only the register of a
stepping mode changes. -/
structure Decoded (mode : Byte) (p : Processor) (calls : List Call) (form : GeneralForm) (q : Processor)
    (bytes : List Byte) (code : Byte) : Prop where
  silent : traffic calls = []
  codeBytes_eq : codeBytes calls = bytes ++ operationCode code form.operand.extended
  length_bytes : bytes.length = Grammar.extension mode
  code_ne_zero : form.operand.extended = false → code ≠ 0
  index : form.index = code >>> 3
  sub : form.sub = registerField code
  size : form.operand.size = Size.field mode
  kind : form.operand.place.kind = Kind.ofMode mode
  value : ∀ data, form.operand.place.number? form.operand.size q data = operandValue? p data mode bytes
  processor : q = { Grammar.stepped p mode with pc := q.pc }

theorem ensures_decode {mode : Byte} {p : Processor} {post : List Call → GeneralForm × Processor → Prop}
    (h : (((AddressingMode.ofByte mode).resolve (Size.field mode)).run p).Ensures fun calls r =>
      ∀ (more : List Call) (code : Byte) (escaped : Bool) (pc : Word), traffic more = [] →
        codeBytes more = operationCode code escaped → (escaped = false → code ≠ 0) →
          post (calls ++ more) (⟨⟨r.1, Size.field mode, escaped⟩, code >>> 3, registerField code⟩, { r.2 with pc := pc })) :
    ((decode mode).run p).Ensures post := by
  unfold decode
  simp only [run_bind, ensures_bind]
  apply h.mono
  rintro calls ⟨place, q⟩ hpost
  simp only [run_fetch, ensures_fetch, ensures_done]
  intro first
  by_cases hz : first = 0
  · simp only [hz, beq_self_eq_true, if_true, run_bind, run_fetch, fetch_bind, done_bind, ensures_fetch]
    intro second
    exact hpost _ second true _ rfl rfl fun h => absurd h (by decide)
  · simp only [beq_false_of_ne hz, Bool.false_eq_true, if_false, run_bind, run_pure, done_bind, ensures_done]
    exact hpost _ first false _ rfl rfl fun _ => hz

theorem decode_ensures (mode : Byte) (p : Processor) (h : isMode mode = true) :
    ((decode mode).run p).Ensures fun calls r => ∃ bytes code, Decoded mode p calls r.1 r.2 bytes code := by
  apply ensures_decode
  apply ((AddressingMode.ofByte mode).resolve_ensures (Size.field mode) p).mono
  rintro calls ⟨place, q⟩ ⟨hsilent, hprocessor, hlength, hkind, hvalue, hregister⟩ more code escaped pc hmore hcode hzero
  rw [AddressingMode.extension_ofByte mode h] at hlength
  rw [AddressingMode.kind_ofByte mode h] at hkind
  rw [AddressingMode.stepped_ofByte] at hprocessor
  have hoperand (data : List Byte) : place.number? (Size.field mode) { q with pc := pc } data =
      operandValue? p data mode (codeBytes calls) := by
    unfold operandValue?
    rw [← hkind]
    cases place with
    | register r =>
      obtain ⟨hmode, rfl⟩ := hregister r rfl
      rw [← AddressingMode.register_ofByte mode r hmode]
      rfl
    | memory page offset => rfl
    | immediate value => exact (hvalue value rfl).symm
  refine ⟨codeBytes calls, code, ?_, ?_, hlength, hzero, rfl, rfl, rfl, hkind, hoperand, ?_⟩
  · rw [traffic_append, hsilent, hmore, List.append_nil]
  · rw [codeBytes_append, hcode]
  · exact congrArg (fun q' : Processor => { q' with pc := pc }) hprocessor

theorem Decoded.verdict? {mode code : Byte} {p q : Processor} {calls : List Call} {form : GeneralForm}
    {bytes : List Byte} (h : Decoded mode p calls form q bytes code) (data more : List Byte) :
    generalVerdict? p data mode (codeBytes calls ++ more) =
      operationVerdict? form.operand.place.kind form.operand.size form.operand.extended
        (form.operand.place.number? form.operand.size q data) code := by
  rw [generalVerdict?, h.codeBytes_eq, List.append_assoc, ← h.length_bytes, List.take_left, List.drop_left,
    h.value, h.kind, h.size]
  cases hescaped : form.operand.extended with
  | true => rfl
  | false => exact if_neg (h.code_ne_zero hescaped)

end GeneralForm

end Microcontroller
