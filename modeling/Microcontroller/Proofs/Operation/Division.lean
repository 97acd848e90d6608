import Microcontroller.Proofs.Instruction.Conduct
import Microcontroller.Proofs.Operation.ExtendedArithmetic

namespace Microcontroller

open Conduct Dialogue Processor

namespace Processor

def halves (r : Register) : Size → List Register
  | .byte => [r]
  | .word => [pairHigh r, pairLow r]

def number (p : Processor) (r : Register) : Size → Nat
  | .byte => (p.reg r).toNat
  | .word => (p.reg (pairHigh r)).toNat * 0x10000 + (p.reg (pairLow r)).toNat

def Holds (p : Processor) (r : Register) (high low : Nat) : Size → Prop
  | .byte => (p.reg r).toNat = high * 0x100 + low
  | .word => (p.reg (pairHigh r)).toNat = high ∧ (p.reg (pairLow r)).toNat = low

theorem pairHigh_ne_pairLow (r : Register) : pairHigh r ≠ pairLow r := by
  revert r
  decide

theorem toNat_dividend (p : Processor) (r : Register) (size : Size) : (p.dividend r size).toNat = p.number r size := by
  cases size with
  | byte => exact BitVec.toNat_setWidth_of_le (by decide)
  | word => rw [dividend, toNat_append_eq, Nat.shiftLeft_eq, number]

theorem reg_setPair (p : Processor) (r s : Register) (value : Long) :
    (p.setPair r value).reg s =
      if s = pairLow r then value.setWidth 16 else if s = pairHigh r then value.extractLsb' 16 16 else p.reg s := by
  rw [setPair, reg_setReg, reg_setReg]

def setHalves (p : Processor) (r : Register) (remainder quotient : Long) : Size → Processor
  | .byte => p.setReg r (wordOf (remainder.setWidth 8) (quotient.setWidth 8))
  | .word => p.setPair r (remainder.setWidth 16 ++ quotient.setWidth 16)

section Halves

variable (p : Processor) (r : Register) (remainder quotient : Long) (size : Size)

theorem holds_setHalves (hremainder : remainder.toNat < 2 ^ size.bits) (hquotient : quotient.toNat < 2 ^ size.bits) :
    (p.setHalves r remainder quotient size).Holds r remainder.toNat quotient.toNat size := by
  cases size with
  | byte =>
    have hhigh := (BitVec.toNat_setWidth 8 remainder).trans (Nat.mod_eq_of_lt hremainder)
    have hlow := (BitVec.toNat_setWidth 8 quotient).trans (Nat.mod_eq_of_lt hquotient)
    rw [Holds, setHalves, reg_setReg, if_pos rfl, toNat_wordOf, hhigh, hlow]
  | word =>
    rw [Holds, setHalves, reg_setPair, reg_setPair, if_neg (pairHigh_ne_pairLow r), if_pos rfl, if_pos rfl,
      BitVec.extractLsb'_append_eq_left, BitVec.setWidth_append_eq_right]
    exact ⟨(BitVec.toNat_setWidth 16 remainder).trans (Nat.mod_eq_of_lt hremainder),
      (BitVec.toNat_setWidth 16 quotient).trans (Nat.mod_eq_of_lt hquotient)⟩

theorem reg_setHalves {s : Register} (h : s ∉ halves r size) : (p.setHalves r remainder quotient size).reg s = p.reg s := by
  cases size with
  | byte => rw [setHalves, reg_setReg, if_neg (mt List.mem_singleton.mpr h)]
  | word =>
    obtain ⟨hhigh, hlow⟩ := not_or.mp (mt List.mem_cons.mpr h)
    rw [setHalves, reg_setPair, if_neg (mt List.mem_singleton.mpr hlow), if_neg hhigh]

theorem setHalves_eq : p.setHalves r remainder quotient size =
    { p with registers := (p.setHalves r remainder quotient size).registers } := by
  cases size <;> rfl

end Halves

def divided (p : Processor) (r : Register) (divisor : Long) (size : Size) : Processor :=
  let quotient := p.dividend r size / divisor
  if size.mask < quotient then
    p.updateStatus (·.withCodes { negative := false, zero := false, overflow := true, carry := false })
  else
    ((p.setHalves r (p.dividend r size % divisor) quotient size).updateStatus (·.withResult quotient size)).updateStatus
      (·.set .carry false)

/-- What a division comes to, told by the number that is divided and by the divisor. -/
structure Division (p : Processor) (r : Register) (size : Size) (divisor : Nat) (result : Except Trap Unit)
    (q : Processor) : Prop where
  zero : divisor = 0 → result = .error .divideByZero ∧ q.registers = p.registers ∧
    q.status.codes = { negative := false, zero := true, overflow := false, carry := false }
  completes : divisor ≠ 0 → result = .ok ()
  overflow : divisor ≠ 0 → divisor ≤ p.number r size / 2 ^ size.bits → q.registers = p.registers ∧
    q.status.codes = { negative := false, zero := false, overflow := true, carry := false }
  fits : p.number r size / 2 ^ size.bits < divisor → ∃ quotient remainder, quotient < 2 ^ size.bits ∧
    remainder < divisor ∧ p.number r size = quotient * divisor + remainder ∧ q.Holds r remainder quotient size ∧
      q.status.codes =
        { negative := decide (2 ^ (size.bits - 1) ≤ quotient)
          zero := decide (quotient = 0)
          overflow := false
          carry := false }
  others : ∀ s, s ∉ halves r size → q.reg s = p.reg s
  processor : q = { p with registers := q.registers, status := q.status }
  masked : q.status.masked = p.status.masked

section Divided

variable (p : Processor) (r : Register) {divisor : Long} (size : Size)

theorem codes_quotient (s : Status) {quotient : Long} (h : quotient.toNat < 2 ^ size.bits) :
    ((s.withResult quotient size).set .carry false).codes =
      { negative := decide (2 ^ (size.bits - 1) ≤ quotient.toNat)
        zero := decide (quotient.toNat = 0)
        overflow := false
        carry := false } := by
  have hcut : (size.cut quotient).toNat = quotient.toNat := (BitVec.toNat_setWidth _ _).trans (Nat.mod_eq_of_lt h)
  have hnegative : size.isNegative quotient = decide (2 ^ (size.bits - 1) ≤ quotient.toNat) := by
    rw [size.isNegative_eq, BitVec.msb_eq_decide, hcut]
  have hzero : size.isZero quotient = decide (quotient.toNat = 0) := by rw [size.isZero_eq, hcut]
  simp [Status.codes, Status.withResult, Status.get_set, hnegative, hzero]

theorem mask_lt_iff (hdivisor : divisor.toNat ≠ 0) :
    size.mask < p.dividend r size / divisor ↔ divisor.toNat ≤ p.number r size / 2 ^ size.bits := by
  rw [BitVec.lt_def, ← Nat.not_le, size.le_toNat_mask, Nat.not_lt, BitVec.toNat_udiv, toNat_dividend,
    Nat.le_div_iff_mul_le (Nat.pos_of_ne_zero hdivisor), Nat.le_div_iff_mul_le (Nat.two_pow_pos size.bits), Nat.mul_comm]

theorem division_zero : p.Division r size 0 (.error .divideByZero)
    (p.updateStatus (·.withCodes { negative := false, zero := true, overflow := false, carry := false })) where
  zero _ := ⟨rfl, rfl, Status.codes_withCodes _ _⟩
  completes h := absurd rfl h
  overflow h := absurd rfl h
  fits h := absurd h (Nat.not_lt_zero _)
  others _ _ := rfl
  processor := rfl
  masked := Status.masked_withCodes _ _

theorem division_divided (hdivisor : divisor.toNat ≠ 0) (hfits : divisor.toNat < 2 ^ size.bits) :
    p.Division r size divisor.toNat (.ok ()) (p.divided r divisor size) := by
  by_cases hwide : divisor.toNat ≤ p.number r size / 2 ^ size.bits
  · rw [divided, if_pos ((p.mask_lt_iff r size hdivisor).mpr hwide)]
    constructor
    case zero => exact fun h => absurd h hdivisor
    case completes => exact fun _ => rfl
    case overflow => exact fun _ _ => ⟨rfl, Status.codes_withCodes _ _⟩
    case fits => exact fun h => absurd hwide (Nat.not_le.mpr h)
    case others => exact fun _ _ => rfl
    case processor => rfl
    case masked => exact Status.masked_withCodes _ _
  · have hnarrow := mt (p.mask_lt_iff r size hdivisor).mp hwide
    have hquotient : (p.dividend r size / divisor).toNat < 2 ^ size.bits := by
      rwa [BitVec.lt_def, Nat.not_lt, size.le_toNat_mask] at hnarrow
    have hremainder : (p.dividend r size % divisor).toNat < divisor.toNat := by
      rw [BitVec.toNat_umod]
      exact Nat.mod_lt _ (Nat.pos_of_ne_zero hdivisor)
    rw [divided, if_neg hnarrow, p.setHalves_eq]
    constructor
    case zero => exact fun h => absurd h hdivisor
    case completes => exact fun _ => rfl
    case overflow => exact fun _ h => absurd h hwide
    case fits =>
      refine fun _ => ⟨_, _, hquotient, hremainder, ?_, ?_, codes_quotient size p.status hquotient⟩
      · rw [BitVec.toNat_udiv, BitVec.toNat_umod, toNat_dividend, Nat.div_add_mod']
      · -- Only here the divisor has to fit the width: a remainder of a larger one could be cut.
        exact p.holds_setHalves r _ _ size (hremainder.trans hfits) hquotient
    case others => exact fun s hs => p.reg_setHalves r _ _ size hs
    case processor => rfl
    case masked => exact (Status.masked_set _ _ _).trans (Status.masked_withResult _ _ _)

end Divided

end Processor

namespace Operand

theorem run_divide (operand : Operand) (r : Register) (p : Processor) :
    (operand.divide r).run p = (operand.read.run p).bind fun read =>
      .done (if read.1 = 0 then
        (.error .divideByZero, read.2.updateStatus
          (·.withCodes { negative := false, zero := true, overflow := false, carry := false }))
      else (.ok (), read.2.divided r read.1 operand.size)) := by
  unfold divide
  rw [Attempt.run_bind, Attempt.run_lift, Dialogue.bind_assoc]
  congr 1
  funext ⟨divisor, q⟩
  rw [done_bind]
  dsimp only
  by_cases hzero : divisor = 0
  · rw [if_pos hzero, if_pos hzero]
    rfl
  · rw [if_neg hzero, if_neg hzero]
    simp only [Attempt.run_bind, Attempt.run_get, done_bind]
    by_cases hwide : operand.size.mask < q.dividend r operand.size / divisor
    · rw [divided, if_pos hwide, if_pos hwide]
      rfl
    · rw [divided, if_neg hwide, if_neg hwide]
      cases operand.size <;> rfl

theorem divide_exact {σ : Type} [Host σ] (operand : Operand) (r : Register) (p : Processor) (host : σ)
    (hfits : (operand.value p host).toNat < 2 ^ operand.size.bits) :
    let division := (operand.divide r).run p
    let reading := operand.read.run p
    p.Division r operand.size (operand.value p host).toNat (division.run host).1.1 (division.run host).1.2 ∧
      (division.run host).2 = (reading.run host).2 ∧ division.transcript host = reading.transcript host ∧
        stores (division.transcript host) = [] := by
  intro division reading
  have htranscript : division.transcript host = reading.transcript host := by
    rw [show division = _ from operand.run_divide r p, transcript_bind]
    exact List.append_nil _
  obtain ⟨-, hstores⟩ := ((inferInstance : operand.read.Keeps Looks).ensures p).transcript host
  refine ⟨?_, ?_, htranscript, htranscript ▸ hstores⟩
  · rw [show division = _ from operand.run_divide r p, Dialogue.run_bind, operand.run_read]
    dsimp only [run_done]
    by_cases hzero : operand.value p host = 0
    · rw [if_pos hzero, hzero]
      exact p.division_zero r operand.size
    · rw [if_neg hzero]
      exact p.division_divided r operand.size (fun h => hzero (BitVec.eq_of_toNat_eq h)) hfits
  · rw [show division = _ from operand.run_divide r p, Dialogue.run_bind]
    rfl

theorem divide_exact_aliased :
    let operand : Operand := ⟨.register 3, .word, false⟩
    let p := (Processor.new.setReg 2 0x0001).setReg 3 0x8000
    let m := Memory.filled 0
    let outcome := ((operand.divide 3).run p).run m
    (operand.value p m).toNat < 2 ^ operand.size.bits ∧
      p.Division 3 .word 0x8000 outcome.1.1 outcome.1.2 ∧ outcome.1.1 = .ok () ∧
        outcome.1.2.reg 2 = 0 ∧ outcome.1.2.reg 3 = 3 := by
  intro operand p m outcome
  have hfits : (operand.value p m).toNat < 2 ^ operand.size.bits := by decide
  have hvalue : (operand.value p m).toNat = 0x8000 := by decide
  obtain ⟨hdivision, -⟩ := operand.divide_exact 3 p m hfits
  rw [hvalue] at hdivision
  exact ⟨hfits, hdivision, hdivision.completes (by decide), by decide, by decide⟩

end Operand

end Microcontroller
