import Microcontroller.Instruction.GeneralForm
import Microcontroller.Proofs.Arithmetic.Limbs
import Microcontroller.Proofs.Instruction.Conduct
import Microcontroller.Proofs.Processor.StatusFlags

namespace Microcontroller

open Arithmetic Conduct Dialogue

namespace Processor

theorem status_store (p : Processor) (r : Register) (value : Long) (size : Size) :
    (p.store r value size).status = p.status := by
  cases size <;> rfl

theorem cut_long_store (p : Processor) (r : Register) (value : Long) (size : Size) :
    size.cut ((p.store r value size).long r) = size.cut value := by
  have hself (word : Word) : (p.setReg r word).reg r = word := (p.reg_setReg r r word).trans (if_pos rfl)
  cases size with
  | byte =>
    rw [Size.cut, long, store, hself]
    exact (lowByte_of_long _).trans (lowByte_wordOf _ _)
  | word =>
    rw [Size.cut, long, store, hself]
    exact word_of_long _

end Processor

namespace Operand

variable {σ : Type} [Host σ] (operand : Operand) (p : Processor) (host : σ)

def value : Long := ((operand.read.run p).run host).1.1

theorem run_read :
    (operand.read.run p).run host = ((operand.value p host, p), ((operand.read.run p).run host).2) := by
  obtain ⟨hkept, -⟩ := ((inferInstance : operand.read.Keeps Looks).ensures p).transcript host
  exact Prod.ext (Prod.ext rfl hkept) rfl

theorem value_updateStatus (f : Status → Status) : operand.value (p.updateStatus f) host = operand.value p host := by
  obtain ⟨place, size, extended⟩ := operand
  match place, size with
  | .register _, _ | .immediate _, _ | .memory _ _, .byte => rfl
  | .memory page offset, .word =>
    simp only [value, read, Routine.run_bind, Routine.run_checkAlignment]
    split <;> rfl

theorem run_accumulate (calculate : Calculation) (r : Register) :
    let outcome := calculate (p.long r) (operand.value p host) false operand.size
    (((operand.accumulate calculate r).run p).run host).1 =
      ((), (p.updateStatus (·.withCodes outcome.codes)).store r outcome.value operand.size) := by
  rw [accumulate, Routine.run_bind, Dialogue.run_bind, run_read]
  rfl

theorem run_accumulateExtended (calculate : Calculation) (r : Register) :
    let outcome := calculate (p.long r) (operand.value p host) (p.status.get .carry) operand.size
    (((operand.accumulateExtended calculate r).run p).run host).1 =
      ((), (p.updateStatus (·.withExtendedCodes outcome.codes)).store r outcome.value operand.size) := by
  rw [accumulateExtended, Routine.run_bind, Dialogue.run_bind, run_read]
  simp only [Routine.run_bind, Routine.run_get, done_bind, Routine.run_conclude, Processor.updateStatus,
    Status.withExtendedCodes]
  cases p.status.get .zero <;> rfl

end Operand

structure Limb (σ : Type) (size : Size) where
  processor : Processor
  host : σ
  place : Place
  extended : Bool
  register : Register

namespace Limb

variable {σ : Type} [Host σ] {size : Size}

def operand (limb : Limb σ size) : Operand := ⟨limb.place, size, limb.extended⟩

def left (limb : Limb σ size) : BitVec size.bits := size.cut (limb.processor.long limb.register)

def right (limb : Limb σ size) : BitVec size.bits := size.cut (limb.operand.value limb.processor limb.host)

def form (limb : Limb σ size) (index : Byte) : GeneralForm := ⟨limb.operand, index, limb.register⟩

def ready (limb : Limb σ size) (status : Status) : Processor := limb.processor.updateStatus fun _ => status

def perform (limb : Limb σ size) (index : Byte) (status : Status) : Except Trap Unit × Processor :=
  (((limb.form index).execute.run (limb.ready status)).run limb.host).1

def execute : List (Byte × Limb σ size) → Status → Except Trap (List (BitVec size.bits) × Status)
  | [], status => .ok ([], status)
  | (index, limb) :: rest, status => do
    let (result, p) := limb.perform index status
    result
    let (values, final) ← execute rest p.status
    return (size.cut (p.long limb.register) :: values, final)

def low (limb : Limb σ size) (sign : Int) (carry : Bool) : Int := exact sign limb.left.toNat limb.right.toNat carry

structure Calculated (limb : Limb σ size) (sign : Int) (carry zero : Bool) (q : Processor) : Prop where
  value_eq : ((size.cut (q.long limb.register)).toNat : Int) = limb.low sign carry % 2 ^ size.bits
  codes_eq : q.status.codes =
    (exactCodes size.bits (limb.low sign carry) (exact sign limb.left.toInt limb.right.toInt carry)).above zero

section Perform

variable {calculate : Calculation} {sign : Int} (hcalculate : Calculates calculate sign) (limb : Limb σ size)

include hcalculate

theorem calculated_store {p : Processor} {carry zero : Bool} {outcome : Outcome}
    (houtcome : outcome = calculate (limb.processor.long limb.register)
      (limb.operand.value limb.processor limb.host) carry size)
    (hcodes : p.status.codes = outcome.codes.above zero) :
    limb.Calculated sign carry zero (p.store limb.register outcome.value size) where
  value_eq := by
    rw [Processor.cut_long_store, houtcome]
    exact hcalculate.value_eq ..
  codes_eq := by
    rw [Processor.status_store, hcodes, houtcome, hcalculate.codes_eq]
    rfl

theorem perform_accumulate {index : Byte} (status : Status)
    (h : (limb.form index).execute = liftM (limb.operand.accumulate calculate limb.register)) :
    ∃ q, limb.perform index status = (.ok (), q) ∧ limb.Calculated sign false true q := by
  rw [perform, h, Attempt.run_lift, Dialogue.run_bind, Operand.run_accumulate, ready, Operand.value_updateStatus]
  refine ⟨_, rfl, limb.calculated_store hcalculate rfl ?_⟩
  exact Status.codes_withCodes _ _

theorem perform_accumulateExtended {index : Byte} (status : Status)
    (h : (limb.form index).execute = liftM (limb.operand.accumulateExtended calculate limb.register)) :
    ∃ q, limb.perform index status = (.ok (), q) ∧
      limb.Calculated sign (status.get .carry) (status.get .zero) q := by
  rw [perform, h, Attempt.run_lift, Dialogue.run_bind, Operand.run_accumulateExtended, ready, Operand.value_updateStatus]
  refine ⟨_, rfl, limb.calculated_store hcalculate rfl ?_⟩
  exact Status.codes_withExtendedCodes _ _

end Perform

section Chain

def unsigned (limbs : List (Limb σ size)) (sign : Int) (carry : Bool) : Int :=
  exact sign (number (limbs.map left)) (number (limbs.map right)) carry

def signed (limbs : List (Limb σ size)) (sign : Int) (carry : Bool) : Int :=
  exact sign (joined limbs.length (limbs.map left)).toInt (joined limbs.length (limbs.map right)).toInt carry

structure Chained (limbs : List (Limb σ size)) (sign : Int) (carry zero : Bool) (values : List (BitVec size.bits))
    (final : Status) : Prop where
  length_eq : values.length = limbs.length
  number_eq : (number values : Int) = unsigned limbs sign carry % 2 ^ (limbs.length * size.bits)
  codes_eq : final.codes =
    (exactCodes (limbs.length * size.bits) (unsigned limbs sign carry) (signed limbs sign carry)).above zero

variable {limb : Limb σ size} {limbs : List (Limb σ size)} {sign : Int} {carry zero : Bool} {q : Processor}

theorem Calculated.chained (h : limb.Calculated sign carry zero q) :
    Chained [limb] sign carry zero [size.cut (q.long limb.register)] q.status := by
  have hnumber (x : BitVec size.bits) : number [x] = x.toNat := Nat.ofDigits_singleton
  have hunsigned : unsigned [limb] sign carry = limb.low sign carry := by
    rw [unsigned, List.map_singleton, List.map_singleton, hnumber, hnumber, low]
  have hsigned : signed [limb] sign carry = exact sign limb.left.toInt limb.right.toInt carry := by
    rw [signed, List.map_singleton, List.map_singleton, List.length_singleton, toInt_joined_singleton,
      toInt_joined_singleton]
  refine ⟨rfl, ?_, ?_⟩
  · rw [hnumber, hunsigned, List.length_singleton, Nat.one_mul, h.value_eq]
  · rw [hunsigned, hsigned, List.length_singleton, Nat.one_mul, h.codes_eq]

section Cons

variable (limb limbs) (hunit : sign = 1 ∨ sign = -1) (carry)

include hunit

theorem unsigned_cons :
    unsigned (limb :: limbs) sign carry = limb.low sign carry % 2 ^ size.bits + 2 ^ size.bits *
      unsigned limbs sign (decide (limb.low sign carry < 0 ∨ 2 ^ size.bits ≤ limb.low sign carry)) := by
  rw [unsigned, List.map_cons, List.map_cons, number_cons, number_cons]
  push_cast
  exact exact_append hunit (Int.natCast_nonneg _) (by exact_mod_cast limb.left.isLt) (Int.natCast_nonneg _)
    (by exact_mod_cast limb.right.isLt) _ _ _

theorem signed_cons (hne : limbs ≠ []) :
    signed (limb :: limbs) sign carry = limb.low sign carry % 2 ^ size.bits + 2 ^ size.bits *
      signed limbs sign (decide (limb.low sign carry < 0 ∨ 2 ^ size.bits ≤ limb.low sign carry)) := by
  have hjoined (x : BitVec size.bits) (f : Limb σ size → BitVec size.bits) :=
    toInt_joined_cons size.bits_pos (List.length_pos_of_ne_nil hne) x (List.length_map f)
  rw [signed, List.map_cons, List.map_cons, List.length_cons, hjoined, hjoined]
  exact exact_append hunit (Int.natCast_nonneg _) (by exact_mod_cast limb.left.isLt) (Int.natCast_nonneg _)
    (by exact_mod_cast limb.right.isLt) _ _ _

end Cons

theorem Calculated.chained_cons (hunit : sign = 1 ∨ sign = -1) {values : List (BitVec size.bits)} {final : Status}
    (hne : limbs ≠ []) (h : limb.Calculated sign carry zero q)
    (hrest : Chained limbs sign (q.status.get .carry) (q.status.get .zero) values final) :
    Chained (limb :: limbs) sign carry zero (size.cut (q.long limb.register) :: values) final := by
  have hpos : (0 : Int) < 2 ^ size.bits := by positivity
  have hlow := Int.emod_nonneg (limb.low sign carry) hpos.ne'
  have hlt := Int.emod_lt_of_pos (limb.low sign carry) hpos
  have hcarry : q.status.get .carry = decide (limb.low sign carry < 0 ∨ 2 ^ size.bits ≤ limb.low sign carry) :=
    congrArg ConditionCodes.carry h.codes_eq
  have hzero : q.status.get .zero = (zero && decide (limb.low sign carry % 2 ^ size.bits = 0)) :=
    congrArg ConditionCodes.zero h.codes_eq
  -- The rest has begun with the flags that this limb left.
  rw [hcarry, hzero] at hrest
  refine ⟨congrArg (· + 1) hrest.length_eq, ?_, ?_⟩
  · rw [number_cons]
    push_cast
    rw [h.value_eq, hrest.number_eq, unsigned_cons limb limbs carry hunit, List.length_cons, Nat.succ_mul, Int.pow_add,
      Int.mul_comm (2 ^ (limbs.length * _)), low_add_emod hlow hlt _ (by positivity)]
  · rw [hrest.codes_eq, unsigned_cons limb limbs carry hunit, signed_cons limb limbs carry hunit hne, List.length_cons,
      Nat.succ_mul, exactCodes_append (Nat.mul_pos (List.length_pos_of_ne_nil hne) size.bits_pos) hlow hlt]
    simp only [ConditionCodes.above, Bool.and_assoc]

end Chain

end Limb

end Microcontroller
