import Microcontroller.Proofs.Operation.FlagUse

namespace Microcontroller

open Attempt Dialogue

theorem setWidth_and_mask {w k : Nat} (value : BitVec w) (mask : BitVec k) (n : Nat) :
    (value.setWidth k).setWidth n &&& mask.setWidth n = value.setWidth n &&& mask.setWidth n := by
  apply BitVec.eq_of_getLsbD_eq
  intro i hi
  simp only [BitVec.getLsbD_and, BitVec.getLsbD_setWidth]
  by_cases hmask : i < k
  · rw [decide_eq_true hmask, Bool.true_and]
  · rw [BitVec.getLsbD_of_ge mask i (by omega), Bool.and_false, Bool.and_false, Bool.and_false]

theorem withLow_and (word : Word) (low : Byte) (mask : Word) :
    withLow word low &&& mask = word &&& (mask &&& 0xFF00) ||| low.setWidth 16 &&& (mask &&& 0x00FF) := by
  have hhigh : ∀ i < 16, (0xFF00 : Word).getLsbD i = decide (8 ≤ i) := by decide
  have hlow : ∀ i < 16, (0x00FF : Word).getLsbD i = decide (i < 8) := by decide
  apply BitVec.eq_of_getLsbD_eq
  intro i hi
  simp only [BitVec.getLsbD_and, BitVec.getLsbD_or, BitVec.getLsbD_setWidth, withLow, getLsbD_wordOf, hhigh i hi,
    hlow i hi]
  by_cases hbyte : i < 8
  · simp [hi, hbyte]
  · have hposition : 8 + (i - 8) = i := by omega
    simp [highByte, hbyte, hposition, show i - 8 < 8 by omega, show 8 ≤ i by omega]

namespace Status

theorem bits_ofWord_withLow (s : Status) (data : Long) :
    (ofWord (withLow s.bits (data.setWidth 8))).bits = s.bits &&& 0x8700 ||| data.setWidth 16 &&& 0x000F := by
  have hdata : (data.setWidth 8).setWidth 16 &&& 0x000F = data.setWidth 16 &&& 0x000F :=
    setWidth_and_mask data (0x0F : Byte) 16
  rw [ofWord, withLow_and, ← hdata]
  rfl

theorem and_existing {s : Status} (h : s.bits &&& ~~~existing = 0) : s.bits &&& existing = s.bits := by
  have hall : existing ||| ~~~existing = BitVec.allOnes 16 := by decide
  calc s.bits &&& existing = s.bits &&& existing ||| s.bits &&& ~~~existing := by
        rw [h]
        exact BitVec.or_zero.symm
    _ = s.bits &&& (existing ||| ~~~existing) := BitVec.and_or_distrib_left.symm
    _ = s.bits := by rw [hall, BitVec.and_allOnes]

end Status

namespace ControlRegister

def bank : List (Size × Byte × ControlRegister) :=
  [(.word, 0, status), (.byte, 1, conditionCodes), (.byte, 3, base), (.word, 3, base), (.byte, 4, extendedPage),
    (.word, 4, extendedPage), (.byte, 5, dataPage), (.word, 5, dataPage), (.byte, 7, stackPage)]

theorem mem_bank_iff {size : Size} {index : Byte} {register : ControlRegister} :
    (size, index, register) ∈ bank ↔ ofIndex? size index = some register := by
  constructor
  · intro h
    have hnamed : ∀ entry ∈ bank, ofIndex? entry.1 entry.2.1 = some entry.2.2 := by decide
    exact hnamed _ h
  · intro h
    have hindex {n : Nat} (hn : index.toNat = n) : index = BitVec.ofNat 8 n := by
      rw [← hn, BitVec.ofNat_toNat, BitVec.setWidth_eq]
    unfold ofIndex? at h
    split at h
    case h_7 => cases h
    case h_3 | h_4 | h_5 =>
      rename_i size _ _ hnumber
      obtain rfl := hindex hnumber
      cases h
      cases size <;> decide
    all_goals
      rename_i hnumber
      obtain rfl := hindex hnumber
      cases h
      decide

theorem ofIndex?_eq_none {size : Size} {index : Byte} (h : ∀ register, (size, index, register) ∉ bank) :
    ofIndex? size index = none :=
  Option.eq_none_iff_forall_ne_some.mpr fun register hregister => h register (mem_bank_iff.mpr hregister)

def mirrored (data : Long) : Size → Long
  | .byte => data &&& 0xFF
  | .word => (data &&& 0xFF) * 0x0101

def readBack (register : ControlRegister) (size : Size) (data : Long) : Long :=
  match register with
  | status => data &&& 0x870F
  | conditionCodes => data &&& 0x0F
  | base | extendedPage | dataPage | stackPage => mirrored data size

theorem pageValue_setWidth (data : Long) (size : Size) : pageValue (data.setWidth 8) size = mirrored data size := by
  have hlow : (data.setWidth 8).toNat = (data &&& 0xFF).toNat := by
    rw [BitVec.toNat_setWidth, BitVec.toNat_and]
    exact (Nat.and_two_pow_sub_one_eq_mod data.toNat 8).symm
  apply BitVec.eq_of_toNat_eq
  cases size with
  | byte => exact (BitVec.toNat_setWidth_of_le (by decide)).trans hlow
  | word =>
    have hlt := (data.setWidth 8).isLt
    have htimes : (mirrored data .word).toNat = (data.setWidth 8).toNat * 0x0101 % 2 ^ 32 := by
      rw [mirrored, BitVec.toNat_mul, ← hlow]
      rfl
    rw [pageValue, BitVec.toNat_setWidth_of_le (by decide), toNat_append_eq, Nat.shiftLeft_eq, htimes]
    omega

theorem mirrored_page (page : Byte) (size : Size) : mirrored (page.setWidth 32) size = pageValue page size := by
  rw [← pageValue_setWidth, BitVec.setWidth_setWidth_of_le _ (by decide), BitVec.setWidth_eq]

theorem setWidth_pageValue (page : Byte) (size : Size) : (pageValue page size).setWidth 8 = page := by
  cases size with
  | byte => rw [pageValue, BitVec.setWidth_setWidth_of_le _ (by decide), BitVec.setWidth_eq]
  | word => rw [pageValue, BitVec.setWidth_setWidth_of_le _ (by decide), BitVec.setWidth_append_eq_right]

theorem read_write (register : ControlRegister) (size : Size) (data : Long) (p : Processor) :
    register.read size (register.write data p) = register.readBack size data := by
  cases register with
  | status =>
    change (data.setWidth 16 &&& Status.existing &&& Status.existing).setWidth 32 = _
    rw [BitVec.and_assoc, BitVec.and_self, BitVec.setWidth_and, setWidth_and_mask, BitVec.setWidth_eq]
    rfl
  | conditionCodes =>
    have hlow : Status.existing &&& 0xFF = 0x000F := by decide
    have hapart : (0x8700 : Word) &&& 0x000F = 0#16 := by decide
    change ((Status.ofWord (withLow p.status.bits (data.setWidth 8))).bits &&& Status.existing &&& 0xFF).setWidth 32 = _
    rw [Status.bits_ofWord_withLow, BitVec.and_assoc, hlow, BitVec.and_or_distrib_right, BitVec.and_assoc, hapart,
      BitVec.and_assoc, BitVec.and_self, BitVec.and_zero, BitVec.zero_or, BitVec.setWidth_and, setWidth_and_mask,
      BitVec.setWidth_eq]
    rfl
  | base | extendedPage | dataPage | stackPage => exact pageValue_setWidth data size

theorem page_write_self {register : ControlRegister} {r : Register} (h : register.field? = some r) (data : Long)
    (p : Processor) : (register.write data p).page r = data.setWidth 8 := by
  cases register
  case status | conditionCodes => cases h
  all_goals
    obtain rfl := Option.some.inj h
    rfl

theorem read_write_of_ne {register other : ControlRegister} (h : other.field? ≠ register.field?) (size : Size)
    (data : Long) (p : Processor) : other.read size (register.write data p) = other.read size p := by
  cases register <;> cases other <;> first | rfl | exact absurd rfl h

theorem write_read {p : Processor} (h : p.status.bits &&& ~~~Status.existing = 0) (register : ControlRegister)
    (size : Size) : register.write (register.read size p) p = p := by
  have hbits := Status.and_existing h
  cases register with
  | status =>
    change { p with status := ⟨((p.status.bits &&& Status.existing).setWidth 32).setWidth 16 &&& Status.existing⟩ } = p
    rw [word_of_long, hbits, hbits]
  | conditionCodes =>
    have hlow : Status.existing &&& (0xFF &&& 0x000F) = 0x000F := by decide
    have hwhole : (0x8700 : Word) ||| 0x000F = Status.existing := by decide
    have hsame : Status.ofWord (withLow p.status.bits ((conditionCodes.read size p).setWidth 8)) = p.status := by
      apply congrArg Status.mk
      -- The low nibble comes from what was read and the rest from the register itself.
      change (Status.ofWord _).bits = _
      rw [Status.bits_ofWord_withLow, read, word_of_long, BitVec.and_assoc, BitVec.and_assoc, hlow,
        ← BitVec.and_or_distrib_left, hwhole, hbits]
    rw [write, hsame]
  | base | extendedPage | dataPage | stackPage => simp only [write, read, setWidth_pageValue]

structure Loaded (register : ControlRegister) (size : Size) (data : Long) (p q : Processor) : Prop where
  read_eq : register.read size q = register.readBack size data
  others : ∀ (other : ControlRegister) (size' : Size),
    other.field? ≠ register.field? → other.read size' q = other.read size' p
  status : q.status = match register with
    | .status => ⟨data.setWidth 16 &&& 0x870F⟩
    | .conditionCodes => ⟨p.status.bits &&& 0x8700 ||| data.setWidth 16 &&& 0x000F⟩
    | _ => p.status
  processor : q = { p with
    status := q.status, base := q.base, extendedPage := q.extendedPage, dataPage := q.dataPage, stackPage := q.stackPage }

theorem loaded_write (register : ControlRegister) (size : Size) (data : Long) (p : Processor) :
    register.Loaded size data p (register.write data p) where
  read_eq := register.read_write size data p
  others other size' h := read_write_of_ne h size' data p
  status := by
    cases register with
    | conditionCodes => exact congrArg Status.mk (Status.bits_ofWord_withLow p.status data)
    | status | base | extendedPage | dataPage | stackPage => rfl
  processor := by cases register <;> rfl

end ControlRegister

inductive ControlLogic where
  | or
  | and
  deriving DecidableEq

namespace ControlLogic

def index : ControlLogic → Byte
  | or => 0x09
  | and => 0x0B

def apply {w : Nat} (logic : ControlLogic) (x y : BitVec w) : BitVec w :=
  match logic with
  | or => x ||| y
  | and => x &&& y

theorem setWidth_apply {w : Nat} (logic : ControlLogic) (x y : BitVec w) (k : Nat) :
    (logic.apply x y).setWidth k = logic.apply (x.setWidth k) (y.setWidth k) := by
  cases logic with
  | or => exact BitVec.setWidth_or
  | and => exact BitVec.setWidth_and

theorem apply_and {w : Nat} (logic : ControlLogic) (x y : BitVec w) {outer mask : BitVec w} (h : outer &&& mask = mask) :
    logic.apply (x &&& outer) y &&& mask = logic.apply x y &&& mask := by
  cases logic with
  | or =>
    change (x &&& outer ||| y) &&& mask = (x ||| y) &&& mask
    rw [BitVec.and_or_distrib_right, BitVec.and_assoc, h, BitVec.and_or_distrib_right]
  | and =>
    change x &&& outer &&& y &&& mask = x &&& y &&& mask
    rw [BitVec.and_assoc x, BitVec.and_comm outer, ← BitVec.and_assoc, BitVec.and_assoc, h]

variable (logic : ControlLogic) (size : Size) (data : Word) (extended : Bool) (sub : Register) (p : Processor)

theorem execute_eq :
    GeneralForm.execute ⟨⟨.immediate data, size, extended⟩, logic.index, sub⟩ =
      Operand.combineControl logic.apply ⟨.immediate data, size, extended⟩ sub := by
  cases logic <;> rfl

def combined (register : ControlRegister) : Processor :=
  let value := logic.apply (register.read size p) (data.setWidth 32)
  let written := register.write value p
  { (if register.field?.isSome then written.updateStatus (·.withResult value size) else written) with
    holdsInterrupts := true }

theorem run_of_some {register : ControlRegister}
    (h : ControlRegister.ofIndex? size (BitVec.ofNat 8 sub.val) = some register) :
    (GeneralForm.execute ⟨⟨.immediate data, size, extended⟩, logic.index, sub⟩).run p =
      .done (.ok (), logic.combined size data p register) := by
  have hfield := ControlRegister.field?_of_ofIndex? h
  rw [execute_eq, Operand.combineControl]
  by_cases hsub : 2 ≤ sub
  · have hnumber : 2 ≤ sub.val := hsub
    rw [if_pos hsub] at hfield
    simp only [readControl_of_some h, writeControl_of_some h, if_pos hnumber, combined, hfield]
    rfl
  · have hnumber : ¬2 ≤ sub.val := hsub
    rw [if_neg hsub] at hfield
    simp only [readControl_of_some h, writeControl_of_some h, if_neg hnumber, combined, hfield]
    rfl

theorem run_of_none (h : ControlRegister.ofIndex? size (BitVec.ofNat 8 sub.val) = none) :
    (GeneralForm.execute ⟨⟨.immediate data, size, extended⟩, logic.index, sub⟩).run p =
      .done (.error (.controlRegister (BitVec.ofNat 8 sub.val) size), p) := by
  rw [execute_eq, Operand.combineControl]
  simp only [readControl_of_none h]
  rfl

structure Combines (logic : ControlLogic) (size : Size) (data : Word) (register : ControlRegister) (p q : Processor) :
    Prop where
  status : register = .status →
    q = { p with status := ⟨logic.apply p.status.bits data &&& 0x870F⟩, holdsInterrupts := true }
  conditionCodes : register = .conditionCodes →
    q = { p with
      status := ⟨p.status.bits &&& 0x8700 ||| logic.apply p.status.bits data &&& 0x000F⟩, holdsInterrupts := true }
  page : ∀ r, register.field? = some r →
    let old : Long := (p.page r).setWidth 32
    let value := logic.apply (ControlRegister.mirrored old size) (data.setWidth 32)
    q.page r = (logic.apply old (data.setWidth 32)).setWidth 8 ∧ (∀ s ≠ r, q.page s = p.page s) ∧
      q.status.codes =
        { negative := (size.cut value).msb
          zero := decide ((size.cut value).toNat = 0)
          overflow := false
          carry := p.status.get .carry } ∧
      q.status.masked = p.status.masked ∧
      q = { p with
        status := q.status, base := q.base, extendedPage := q.extendedPage, dataPage := q.dataPage,
        stackPage := q.stackPage, holdsInterrupts := true }

theorem combines_combined (register : ControlRegister) :
    logic.Combines size data register p (logic.combined size data p register) := by
  constructor
  case status =>
    rintro rfl
    have hbits : (logic.apply (ControlRegister.status.read size p) (data.setWidth 32)).setWidth 16 &&& Status.existing =
        logic.apply p.status.bits data &&& Status.existing := by
      rw [setWidth_apply, ControlRegister.read, word_of_long, word_of_long, apply_and logic _ _ BitVec.and_self]
    exact congrArg (fun bits => { p with status := ⟨bits⟩, holdsInterrupts := true }) hbits
  case conditionCodes =>
    rintro rfl
    have hlow : (Status.existing &&& 0xFF) &&& 0x000F = 0x000F := by decide
    have hvalue : (logic.apply (ControlRegister.conditionCodes.read size p) (data.setWidth 32)).setWidth 16 &&& 0x000F =
        logic.apply p.status.bits data &&& 0x000F := by
      rw [setWidth_apply, ControlRegister.read, word_of_long, word_of_long, BitVec.and_assoc, apply_and logic _ _ hlow]
    have hbits := Status.bits_ofWord_withLow p.status
      (logic.apply (ControlRegister.conditionCodes.read size p) (data.setWidth 32))
    rw [hvalue] at hbits
    exact congrArg (fun bits => { p with status := ⟨bits⟩, holdsInterrupts := true }) hbits
  case page =>
    intro r hr old value
    let written := register.write value p
    have hold : old.setWidth 8 = p.page r := by
      rw [BitVec.setWidth_setWidth_of_le _ (by decide), BitVec.setWidth_eq]
    have hread : register.read size p = ControlRegister.mirrored old size := by
      rw [register.read_page hr, ControlRegister.mirrored_page]
    have hcombined : logic.combined size data p register =
        { written.updateStatus (·.withResult value size) with holdsInterrupts := true } := by
      rw [combined, hread, hr]
      rfl
    have hstatus : written.status = p.status := register.status_write hr value p
    rw [hcombined]
    refine ⟨?_, ?_, ?_, ?_, ?_⟩
    · -- Whichever width was read, the low byte is the page.
      change written.page r = _
      rw [register.page_write_self hr, setWidth_apply, setWidth_apply, ControlRegister.mirrored_page,
        ControlRegister.setWidth_pageValue, hold]
    · intro s hs
      exact register.page_write value p (hr ▸ fun h => hs (Option.some.inj h).symm)
    · change (written.status.withResult value size).codes = _
      rw [Status.codes_withResult, Size.isNegative_eq, Size.isZero_eq, hstatus]
    · change (written.status.withResult value size).masked = _
      rw [Status.masked_withResult, hstatus]
    · have hwritten := (register.loaded_write size value p).processor
      exact congrArg (fun q : Processor =>
        { q.updateStatus (·.withResult value size) with holdsInterrupts := true }) hwritten

end ControlLogic

open ControlRegister in
theorem control_bank (p : Processor) (size : Size) :
    (∀ index : Byte,
      (∀ register, (size, index, register) ∈ bank →
        (∃ data, (readControl index size).run p = .done (.ok data, p) ∧
          (p.status.bits &&& ~~~0x870F = 0 → (writeControl index size data).run p = .done (.ok (), p))) ∧
        ∀ data, ∃ q, (writeControl index size data).run p = .done (.ok (), q) ∧
          (readControl index size).run q = .done (.ok (register.readBack size data), q) ∧
          register.Loaded size data p q) ∧
      ((∀ register, (size, index, register) ∉ bank) →
        (readControl index size).run p = .done (.error (.controlRegister index size), p) ∧
        ∀ data, (writeControl index size data).run p = .done (.error (.controlRegister index size), p))) ∧
    ∀ (logic : ControlLogic) (data : Word) (extended : Bool) (sub : Register),
      let index := BitVec.ofNat 8 sub.val
      let run := (GeneralForm.execute ⟨⟨.immediate data, size, extended⟩, logic.index, sub⟩).run p
      (∀ register, (size, index, register) ∈ bank →
        ∃ q, run = .done (.ok (), q) ∧ logic.Combines size data register p q) ∧
      ((∀ register, (size, index, register) ∉ bank) → run = .done (.error (.controlRegister index size), p)) := by
  refine ⟨fun index => ⟨?_, ?_⟩, fun logic data extended sub => ⟨?_, ?_⟩⟩
  · intro register hregister
    have h := mem_bank_iff.mp hregister
    have hread (p : Processor) : (readControl index size).run p = .done (.ok (register.read size p), p) := by
      rw [readControl_of_some h]
      rfl
    have hwrite (data : Long) : (writeControl index size data).run p = .done (.ok (), register.write data p) := by
      rw [writeControl_of_some h]
      rfl
    refine ⟨⟨_, hread p, fun hstatus => ?_⟩, fun data => ⟨_, hwrite data, ?_, register.loaded_write size data p⟩⟩
    · rw [hwrite, register.write_read hstatus]
    · rw [hread, register.read_write]
  · intro hmissing
    have h := ofIndex?_eq_none hmissing
    refine ⟨?_, fun data => ?_⟩
    · rw [readControl_of_none h]
      rfl
    · rw [writeControl_of_none h]
      rfl
  · intro register hregister
    exact ⟨_, logic.run_of_some size data extended sub p (mem_bank_iff.mp hregister),
      logic.combines_combined size data p register⟩
  · exact fun hmissing => logic.run_of_none size data extended sub p (ofIndex?_eq_none hmissing)

end Microcontroller
