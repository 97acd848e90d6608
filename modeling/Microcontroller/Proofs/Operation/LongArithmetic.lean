import Microcontroller.Memory
import Microcontroller.Proofs.Operation.ExtendedArithmetic

namespace Microcontroller.Limb

open Arithmetic

variable {σ : Type} [Host σ] {size : Size}

/-- A run may start with the plain operation, or with the extended one and flags that say nothing yet. -/
def Starts (plain extended start : Byte) (status : Status) : Prop :=
  start = plain ∨ start = extended ∧ status.get .carry = false ∧ status.get .zero = true

theorem execute_cons {limb : Limb σ size} {index : Byte} {rest : List (Byte × Limb σ size)} {status final : Status}
    {q : Processor} {values : List (BitVec size.bits)} (hperform : limb.perform index status = (.ok (), q))
    (hrest : execute rest q.status = .ok (values, final)) :
    execute ((index, limb) :: rest) status = .ok (size.cut (q.long limb.register) :: values, final) := by
  rw [execute, hperform]
  change (execute rest q.status >>= _) = _
  rw [hrest]
  rfl

section Execute

variable {calculate : Calculation} {sign : Int} (hcalculate : Calculates calculate sign) {plain extended : Byte}
  (hplain : ∀ limb : Limb σ size, (limb.form plain).execute = liftM (limb.operand.accumulate calculate limb.register))
  (hextended : ∀ limb : Limb σ size,
    (limb.form extended).execute = liftM (limb.operand.accumulateExtended calculate limb.register))

include hcalculate hextended

theorem execute_chained (first : Limb σ size) (rest : List (Limb σ size)) {start : Byte} {status : Status}
    {carry zero : Bool}
    (hfirst : ∃ q, first.perform start status = (.ok (), q) ∧ first.Calculated sign carry zero q) :
    ∃ values final, execute ((start, first) :: rest.map (extended, ·)) status = .ok (values, final) ∧
      Chained (first :: rest) sign carry zero values final := by
  induction rest generalizing first start status carry zero with
  | nil =>
    obtain ⟨q, hperform, hcalculated⟩ := hfirst
    exact ⟨_, _, execute_cons hperform rfl, hcalculated.chained⟩
  | cons second rest ih =>
    obtain ⟨q, hperform, hcalculated⟩ := hfirst
    obtain ⟨values, final, hexecute, hchained⟩ :=
      ih second (second.perform_accumulateExtended hcalculate q.status (hextended second))
    exact ⟨_, _, execute_cons hperform hexecute,
      hcalculated.chained_cons hcalculate.unit (List.cons_ne_nil _ _) hchained⟩

include hplain

theorem execute_of_starts (first : Limb σ size) (rest : List (Limb σ size)) {start : Byte} {status : Status}
    (h : Starts plain extended start status) :
    ∃ values final, execute ((start, first) :: rest.map (extended, ·)) status = .ok (values, final) ∧
      Chained (first :: rest) sign false true values final := by
  apply execute_chained hcalculate hextended
  rcases h with rfl | ⟨rfl, hcarry, hzero⟩
  · exact first.perform_accumulate hcalculate status (hplain first)
  · rw [← hcarry, ← hzero]
    exact first.perform_accumulateExtended hcalculate status (hextended first)

theorem execute_result (first : Limb σ size) (rest : List (Limb σ size)) :
    let limbs := first :: rest
    let n := limbs.length
    let x := joined n (limbs.map left)
    let y := joined n (limbs.map right)
    ∃ values, values.length = n ∧ (number values : Int) = exact sign x.toNat y.toNat false % 2 ^ (n * size.bits) ∧
      ∀ start status, Starts plain extended start status →
        ∃ final, execute ((start, first) :: rest.map (extended, ·)) status = .ok (values, final) ∧
          final.codes = exactCodes (n * size.bits) (exact sign x.toNat y.toNat false)
            (exact sign x.toInt y.toInt false) := by
  intro limbs n x y
  have hx : x.toNat = number (limbs.map left) := toNat_joined _ (List.length_map _)
  have hy : y.toNat = number (limbs.map right) := toNat_joined _ (List.length_map _)
  obtain ⟨values, _, -, hvalues⟩ :=
    execute_of_starts hcalculate hplain hextended first rest (show Starts plain extended plain ⟨0⟩ from .inl rfl)
  refine ⟨values, hvalues.length_eq, ?_, ?_⟩
  · rw [hx, hy]
    exact hvalues.number_eq
  · intro start status hstarts
    obtain ⟨values', final, hexecute, hchained⟩ := execute_of_starts hcalculate hplain hextended first rest hstarts
    have hsame : values' = values := by
      apply number_injective size.bits_pos (hchained.length_eq.trans hvalues.length_eq.symm)
      exact_mod_cast hchained.number_eq.trans hvalues.number_eq.symm
    refine ⟨final, hsame ▸ hexecute, ?_⟩
    rw [hx, hy]
    exact hchained.codes_eq

end Execute

theorem long_arithmetic (first : Limb σ size) (rest : List (Limb σ size)) :
    let limbs := first :: rest
    let n := limbs.length
    let x := joined n (limbs.map left)
    let y := joined n (limbs.map right)
    (∃ values codes, values.length = n ∧ joined n values = x + y ∧ codes.carry = x.uaddOverflow y ∧
      (codes.zero = true ↔ ∀ value ∈ values, value = 0) ∧ codes.negative = (x + y).msb ∧
        codes.overflow = x.saddOverflow y ∧
          ∀ start status, Starts 0x04 0x14 start status →
            ∃ final, execute ((start, first) :: rest.map (0x14, ·)) status = .ok (values, final) ∧
              final.codes = codes) ∧
    (∃ values codes, values.length = n ∧ joined n values = x - y ∧ (codes.carry = true ↔ x.toNat < y.toNat) ∧
      (codes.zero = true ↔ x = y) ∧ (codes.negative ≠ codes.overflow ↔ x.toInt < y.toInt) ∧
        (∀ condition : Condition, condition.holds codes = true ↔ condition.Relates x y) ∧
          ∀ start status, Starts 0x06 0x16 start status →
            ∃ final, execute ((start, first) :: rest.map (0x16, ·)) status = .ok (values, final) ∧
              final.codes = codes) := by
  intro limbs n x y
  have hbits : 0 < n * size.bits := Nat.mul_pos (Nat.succ_pos _) size.bits_pos
  constructor
  · have hplain (limb : Limb σ size) :
        (limb.form 0x04).execute = liftM (limb.operand.accumulate add limb.register) := rfl
    have hextended (limb : Limb σ size) :
        (limb.form 0x14).execute = liftM (limb.operand.accumulateExtended add limb.register) := rfl
    obtain ⟨values, hlength, hnumber, hexecute⟩ := execute_result calculates_add hplain hextended first rest
    have hjoined : joined n values = x + y := by
      apply BitVec.eq_of_toNat_eq
      rw [toNat_joined values hlength, BitVec.toNat_add]
      rw [exact_sum] at hnumber
      exact_mod_cast hnumber
    rw [exactCodes_sum] at hexecute
    refine ⟨values, _, hlength, hjoined, rfl, ?_, rfl, rfl, hexecute⟩
    rw [decide_eq_true_iff, ← hjoined, ← number_eq_zero, ← toNat_joined values hlength, ← BitVec.toNat_inj]
    rfl
  · have hplain (limb : Limb σ size) :
        (limb.form 0x06).execute = liftM (limb.operand.accumulate subtract limb.register) := rfl
    have hextended (limb : Limb σ size) :
        (limb.form 0x16).execute = liftM (limb.operand.accumulateExtended subtract limb.register) := rfl
    obtain ⟨values, hlength, hnumber, hexecute⟩ := execute_result calculates_subtract hplain hextended first rest
    have hjoined : joined n values = x - y := by
      apply BitVec.eq_of_toNat_eq
      rw [toNat_joined values hlength]
      rw [exact_difference, ← toNat_sub_eq] at hnumber
      exact_mod_cast hnumber
    refine ⟨values, differenceCodes x y, hlength, hjoined, ?_, ?_, ?_, holds_differenceCodes x y hbits, hexecute⟩
    · rw [carry_differenceCodes, decide_eq_true_iff]
    · rw [zero_differenceCodes, decide_eq_true_iff]
    · rw [← bne_iff_ne, less_differenceCodes x y hbits, decide_eq_true_iff]

theorem long_arithmetic_carries :
    let low : Limb Memory .byte :=
      { processor := (Processor.new.setReg 0 0x34FF).setReg 1 0x5601, host := Memory.filled 0
        place := .register 1, extended := false, register := 0 }
    let high : Limb Memory .byte :=
      { processor := Processor.new.setReg 2 0x127F, host := Memory.filled 0
        place := .memory 0 0x0040, extended := false, register := 2 }
    Starts 0x04 0x14 0x14 ⟨0x0004⟩ ∧ Starts 0x06 0x16 0x06 ⟨0x0005⟩ ∧
      (∃ values final, execute [(0x14, low), (0x14, high)] ⟨0x0004⟩ = .ok (values, final) ∧
        joined 2 values = 0x8000 ∧ final.codes.overflow = true) ∧
      ∃ values final, execute [(0x06, low), (0x16, high)] ⟨0x0005⟩ = .ok (values, final) ∧
        joined 2 values = 0x7FFE ∧ final.codes.carry = false := by
  intro low high
  have hsum : Starts 0x04 0x14 0x14 ⟨0x0004⟩ := .inr ⟨rfl, by decide, by decide⟩
  have hdifference : Starts 0x06 0x16 0x06 ⟨0x0005⟩ := .inl rfl
  obtain ⟨⟨sum, _, -, hjoined, -, -, -, hoverflow, hexecute⟩,
    ⟨difference, _, -, hjoined', hcarry, -, -, -, hexecute'⟩⟩ := long_arithmetic low [high]
  obtain ⟨final, hfinal, hcodes⟩ := hexecute _ _ hsum
  obtain ⟨final', hfinal', hcodes'⟩ := hexecute' _ _ hdifference
  refine ⟨hsum, hdifference, ⟨sum, final, hfinal, hjoined.trans (by decide +kernel), ?_⟩,
    difference, final', hfinal', hjoined'.trans (by decide +kernel), ?_⟩
  · rw [hcodes, hoverflow]
    decide +kernel
  · rw [hcodes', ← Bool.not_eq_true, hcarry]
    decide +kernel

end Microcontroller.Limb
