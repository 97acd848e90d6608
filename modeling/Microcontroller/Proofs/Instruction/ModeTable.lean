import Microcontroller.Proofs.Instruction.Lengths
import Microcontroller.Proofs.Operation.ExtendedArithmetic

namespace Microcontroller

open Conduct Dialogue Processor

namespace Grammar

section Table

variable (p : Processor) (size : Size) (r : Register)

def displaced (distance : Int) : Place :=
  .memory (if r < 4 then p.dataPage else if r < 6 then p.extendedPage else p.stackPage)
    (BitVec.ofInt 16 ((p.reg r).toNat + distance))

def stride : Int := if size = .word ∨ r = stackPointer then 2 else 1

def bigEndian (high low : Byte) : Word := BitVec.ofNat 16 (high.toNat * 0x100 + low.toNat)

/-- The operand that a mode byte names with the bytes behind it, by the high half of the mode byte, and what is added to
the register. -/
inductive Names : (row : Nat) → (bytes : List Byte) → Place → (step : Int) → Prop where
  | direct : Names 0xA [] (.register r) 0
  | preDecrement : Names 0xB [] (displaced p r (-stride size r)) (-stride size r)
  | postIncrement : Names 0xC [] (displaced p r 0) (stride size r)
  | indirect : Names 0xD [] (displaced p r 0) 0
  | byteDisplaced (offset : Byte) : Names 0xE [offset] (displaced p r offset.toInt) 0
  | wordDisplaced (high low : Byte) : Names 0xF [high, low] (displaced p r (bigEndian high low).toNat) 0
  | shortAbsolute (low : Byte) : r = 5 → Names 0x0 [low] (.memory 0 (bigEndian p.base low)) 0
  | absolute (high low : Byte) : r = 5 → Names 0x1 [high, low] (.memory p.dataPage (bigEndian high low)) 0
  | byteImmediate (byte : Byte) : r = 4 → size = .byte → Names 0x0 [byte] (.immediate (BitVec.ofNat 16 byte.toNat)) 0
  | wordImmediate (high low : Byte) : r = 4 → size = .word → Names 0x0 [high, low] (.immediate (bigEndian high low)) 0
  | other (row : Nat) : row < 0xA → (row = 0x0 → r ≠ 4 ∧ r ≠ 5) → (row = 0x1 → r ≠ 5) → Names row [] (.register r) 0

end Table

theorem bigEndian_eq (high low : Byte) : bigEndian high low = wordOf high low := by
  rw [bigEndian, ← toNat_wordOf, BitVec.ofNat_toNat, BitVec.setWidth_eq]

theorem ofInt_stride (size : Size) (r : Register) : BitVec.ofInt 16 (stride size r) = AddressingMode.stride r size := by
  unfold stride AddressingMode.stride
  split <;> rfl

theorem displaced_eq (p : Processor) (r : Register) (distance : Int) :
    displaced p r distance = AddressingMode.placeAt p r (BitVec.ofInt 16 distance) := by
  rw [displaced, BitVec.ofInt_add, BitVec.ofInt_natCast, BitVec.ofNat_toNat, BitVec.setWidth_eq]
  rfl

theorem val_registerField (byte : Byte) : (registerField byte).val = byte.toNat % 8 := BitVec.toNat_setWidth 3 byte

end Grammar

namespace AddressingMode

open Grammar (Names displaced_eq bigEndian bigEndian_eq ofInt_stride)

section Names

variable (p : Processor) (size : Size) {r : Register}

theorem names_indirect (r : Register) : Names p size r 0xD [] (placeAt p r 0) 0 := by
  have hrow := @Names.indirect p size r
  rwa [displaced_eq] at hrow

theorem names_postIncrement (r : Register) : Names p size r 0xC [] (placeAt p r 0) (Grammar.stride size r) := by
  have hrow := @Names.postIncrement p size r
  rwa [displaced_eq] at hrow

theorem names_preDecrement (r : Register) :
    Names p size r 0xB [] (placeAt (p.setReg r (p.reg r - stride r size)) r 0) (-Grammar.stride size r) := by
  have hrow := @Names.preDecrement p size r
  have hplace : placeAt (p.setReg r (p.reg r - stride r size)) r 0 = placeAt p r (-stride r size) := by
    rw [placeAt, reg_setReg, if_pos rfl, BitVec.sub_eq_add_neg]
    exact congrArg (Place.memory _) (BitVec.add_zero _)
  rwa [displaced_eq, BitVec.ofInt_neg, ofInt_stride, ← hplace] at hrow

theorem names_byteDisplaced (r : Register) (offset : Byte) :
    Names p size r 0xE [offset] (placeAt p r (displacement offset)) 0 := by
  have hrow := @Names.byteDisplaced p size r offset
  rwa [displaced_eq] at hrow

theorem names_wordDisplaced (r : Register) (high low : Byte) :
    Names p size r 0xF [high, low] (placeAt p r (wordOf high low)) 0 := by
  have hrow := @Names.wordDisplaced p size r high low
  rwa [displaced_eq, BitVec.ofInt_natCast, BitVec.ofNat_toNat, BitVec.setWidth_eq, bigEndian_eq] at hrow

theorem names_shortAbsolute (h : r = 5) (low : Byte) : Names p size r 0x0 [low] (.memory 0 (wordOf p.base low)) 0 := by
  rw [← bigEndian_eq]
  exact .shortAbsolute low h

theorem names_absolute (h : r = 5) (high low : Byte) :
    Names p size r 0x1 [high, low] (.memory p.dataPage (wordOf high low)) 0 := by
  rw [← bigEndian_eq]
  exact .absolute high low h

theorem names_byteImmediate (h : r = 4) (byte : Byte) : Names p .byte r 0x0 [byte] (.immediate (byte.setWidth 16)) 0 := by
  rw [← BitVec.ofNat_toNat]
  exact .byteImmediate byte h rfl

theorem names_wordImmediate (h : r = 4) (high low : Byte) :
    Names p .word r 0x0 [high, low] (.immediate (wordOf high low)) 0 := by
  rw [← bigEndian_eq]
  exact .wordImmediate high low h rfl

end Names

structure Tabled (mode : Byte) (p : Processor) (calls : List Call) (place : Place) (q : Processor) (step : Int) : Prop where
  names : Names p (Size.field mode) (registerField mode) (mode.toNat / 16) (codeBytes calls) place step
  silent : traffic calls = []
  processor : q = { p.setReg (registerField mode) (p.reg (registerField mode) + BitVec.ofInt 16 step) with pc := q.pc }

theorem tabled_still {mode : Byte} {p : Processor} {calls : List Call} {place : Place} {q : Processor}
    (hnames : Names p (Size.field mode) (registerField mode) (mode.toNat / 16) (codeBytes calls) place 0)
    (hsilent : traffic calls = []) (hq : q = { p with pc := q.pc }) : ∃ step, Tabled mode p calls place q step := by
  refine ⟨0, hnames, hsilent, ?_⟩
  have hkept : p.reg (registerField mode) + BitVec.ofInt 16 0 = p.reg (registerField mode) := BitVec.add_zero _
  rw [hkept, p.setReg_reg]
  exact hq

theorem resolve_tabled (mode : Byte) (p : Processor) :
    (((ofByte mode).resolve (Size.field mode)).run p).Ensures fun calls r => ∃ step, Tabled mode p calls r.1 r.2 step := by
  have hrow : (mode >>> 4).toNat = mode.toNat / 16 := by
    rw [BitVec.toNat_ushiftRight, Nat.shiftRight_eq_div_pow]
  have hlt : mode.toNat / 16 < 16 := Nat.div_lt_of_lt_mul mode.isLt
  unfold ofByte
  rw [hrow]
  dsimp only
  split
  next h =>
    by_cases hshort : registerField mode = 5
    · rw [if_pos hshort]
      exact fun low => tabled_still (h ▸ names_shortAbsolute p _ hshort low) rfl rfl
    rw [if_neg hshort]
    by_cases himmediate : registerField mode = 4
    · rw [if_pos himmediate]
      cases hsize : Size.field mode with
      | byte => exact fun byte => tabled_still (h ▸ hsize ▸ names_byteImmediate p himmediate byte) rfl rfl
      | word => exact fun high low => tabled_still (h ▸ hsize ▸ names_wordImmediate p himmediate high low) rfl rfl
    · rw [if_neg himmediate]
      exact tabled_still (h ▸ .other 0x0 (by decide) (fun _ => ⟨himmediate, hshort⟩) nofun) rfl rfl
  next h =>
    by_cases habsolute : registerField mode = 5
    · rw [if_pos habsolute]
      exact fun high low => tabled_still (h ▸ names_absolute p _ habsolute high low) rfl rfl
    · rw [if_neg habsolute]
      exact tabled_still (h ▸ .other 0x1 (by decide) nofun fun _ => habsolute) rfl rfl
  next h =>
    refine ⟨_, h ▸ names_preDecrement p _ _, rfl, ?_⟩
    rw [BitVec.ofInt_neg, ofInt_stride, ← BitVec.sub_eq_add_neg]
  next h =>
    refine ⟨_, h ▸ names_postIncrement p _ _, rfl, ?_⟩
    rw [ofInt_stride]
  next h => exact tabled_still (h ▸ names_indirect p _ _) rfl rfl
  next h => exact fun offset => tabled_still (h ▸ names_byteDisplaced p _ _ offset) rfl rfl
  next h => exact fun high low => tabled_still (h ▸ names_wordDisplaced p _ _ high low) rfl rfl
  next hzero hone hb hc hd he hf =>
    apply tabled_still _ rfl rfl
    by_cases hdirect : mode.toNat / 16 = 0xA
    · rw [hdirect]
      exact .direct
    · have hbelow : mode.toNat / 16 < 0xA := by grind
      exact .other _ hbelow (fun h => absurd h hzero) fun h => absurd h hone

end AddressingMode

open Grammar (Names val_registerField)

theorem Grammar.Names.immediate_lt {p : Processor} {size : Size} {r : Register} {row : Nat} {bytes : List Byte}
    {data : Word} {step : Int} (h : Names p size r row bytes (.immediate data) step) : data.toNat < 2 ^ size.bits := by
  cases h with
  | byteImmediate byte hr hsize =>
    subst hsize
    rw [BitVec.toNat_ofNat]
    exact Nat.lt_of_le_of_lt (Nat.mod_le _ _) byte.isLt
  | wordImmediate high low hr hsize =>
    subst hsize
    exact (Grammar.bigEndian high low).isLt

theorem Operand.value_lt {σ : Type} [Host σ] {operand : Operand}
    (h : ∀ data, operand.place = .immediate data → data.toNat < 2 ^ operand.size.bits) (p : Processor) (host : σ) :
    (operand.value p host).toNat < 2 ^ operand.size.bits := by
  obtain ⟨hnumber, -⟩ := (operand.read_ensures p).transcript host
  unfold Place.number? at hnumber
  split at hnumber
  next => exact (operand.size.le_toNat_mask _).mp (Grammar.number?_le hnumber)
  next => exact (operand.size.le_toNat_mask _).mp (Grammar.number?_le hnumber)
  next data hplace =>
    obtain hdata := Option.some.inj hnumber
    exact hdata ▸ h data hplace

namespace GeneralForm

open Instruction (operationCode)

structure Tabulated (mode : Byte) (p : Processor) (calls : List Call) (form : GeneralForm) (q : Processor)
    (bytes : List Byte) (code : Byte) (step : Int) : Prop where
  size : form.operand.size = if mode.getLsbD 3 then .word else .byte
  names : Names p form.operand.size (registerField mode) (mode.toNat / 16) bytes form.operand.place step
  codeBytes_eq : codeBytes calls = bytes ++ operationCode code form.operand.extended
  codeAddresses_eq : codeAddresses calls = codePath p.codePage p.pc (codeBytes calls).length
  code_ne_zero : form.operand.extended = false → code ≠ 0
  index : form.index.toNat = code.toNat / 8
  slot : form.slot.val = code.toNat / 8
  sub : form.sub.val = code.toNat % 8
  silent : traffic calls = []
  processor : q = { p.setReg (registerField mode) (p.reg (registerField mode) + BitVec.ofInt 16 step) with
    pc := p.pc + BitVec.ofNat 16 (codeBytes calls).length }

theorem decode_tabulated (mode : Byte) (p : Processor) :
    ((decode mode).run p).Ensures fun calls r => ∃ bytes code step, Tabulated mode p calls r.1 r.2 bytes code step := by
  have hstraight : ((decode mode).run p).Ensures fun calls r => Straight p calls r.2 :=
    (inferInstance : (decode mode).Keeps Straight).ensures p
  have htabulated : ((decode mode).run p).Ensures fun calls r => Straight p calls r.2 →
      ∃ bytes code step, Tabulated mode p calls r.1 r.2 bytes code step := by
    apply ensures_decode
    apply (AddressingMode.resolve_tabled mode p).mono
    rintro calls ⟨place, q⟩ ⟨step, hnames, hsilent, hprocessor⟩ more code escaped pc hmore hcode hzero hstraight
    have hindex : (code >>> 3).toNat = code.toNat / 8 := by
      rw [BitVec.toNat_ushiftRight, Nat.shiftRight_eq_div_pow]
    have hpc := hstraight.pc_eq
    obtain ⟨-, n, hn, -, -⟩ := hstraight
    refine ⟨codeBytes calls, code, step, rfl, hnames, ?_, ?_, hzero, hindex, ?_, val_registerField code, ?_, ?_⟩
    · rw [codeBytes_append, hcode]
    · rw [← length_codeAddresses, hn, length_codePath]
    · change ((code >>> 3).setWidth 5).toNat = _
      rw [BitVec.toNat_setWidth, hindex]
      omega
    · rw [traffic_append, hsilent, hmore, List.append_nil]
    · rw [← hpc, hprocessor]
  apply (htabulated.and hstraight).mono
  rintro calls r ⟨h, hstraight⟩
  exact h hstraight

theorem general_decodes {σ : Type} [Host σ] (p : Processor) (host : σ) (mode : Byte) :
    let decoding := (decode mode).run p
    let form := (decoding.run host).1.1
    let q := (decoding.run host).1.2
    ((Form.execute .general mode).run p).run host =
        (((Operation.ofSlot form.slot).execute form.operand form.index form.sub).run q).run (decoding.run host).2 ∧
      (∃ bytes code step, Tabulated mode p (decoding.transcript host) form q bytes code step) ∧
      ∀ (τ : Type) [Host τ] (bus : τ) (p' : Processor),
        (form.operand.value p' bus).toNat < 2 ^ form.operand.size.bits := by
  intro decoding form q
  obtain ⟨bytes, code, step, htabulated⟩ := (decode_tabulated mode p).transcript host
  refine ⟨?_, ⟨bytes, code, step, htabulated⟩, fun τ _ bus p' => ?_⟩
  · change ((liftM (decode mode) >>= execute : Attempt Unit).run p).run host = _
    rw [Attempt.run_bind, Attempt.run_lift, Dialogue.bind_assoc, Dialogue.run_bind]
    rfl
  · apply Operand.value_lt
    intro data hplace
    have hnames := htabulated.names
    rw [hplace] at hnames
    exact hnames.immediate_lt

end GeneralForm

end Microcontroller
