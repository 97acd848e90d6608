import Mathlib.Data.Nat.Digits.Lemmas
import Mathlib.Tactic.Linarith
import Microcontroller.Proofs.Arithmetic.Comparison

namespace Microcontroller

namespace Arithmetic

def number {w : Nat} (limbs : List (BitVec w)) : Nat := Nat.ofDigits (2 ^ w) (limbs.map BitVec.toNat)

def joined {w : Nat} (n : Nat) (limbs : List (BitVec w)) : BitVec (n * w) := BitVec.ofNat (n * w) (number limbs)

section Number

variable {w : Nat} (x : BitVec w) (limbs : List (BitVec w))

theorem number_cons : number (x :: limbs) = x.toNat + 2 ^ w * number limbs := Nat.ofDigits_cons

theorem number_lt : number limbs < 2 ^ (limbs.length * w) := by
  induction limbs with
  | nil => exact Nat.two_pow_pos _
  | cons x limbs ih =>
    have hx := x.isLt
    rw [number_cons, List.length_cons, Nat.succ_mul, Nat.pow_add]
    nlinarith

theorem toNat_joined {n : Nat} (hn : limbs.length = n) : (joined n limbs).toNat = number limbs := by
  subst hn
  exact (BitVec.toNat_ofNat _ _).trans (Nat.mod_eq_of_lt (number_lt limbs))

theorem number_eq_zero : number limbs = 0 ↔ ∀ limb ∈ limbs, limb = 0 := by
  induction limbs with
  | nil => exact iff_of_true rfl nofun
  | cons x limbs ih =>
    have hpow : 2 ^ w ≠ 0 := (Nat.two_pow_pos w).ne'
    rw [number_cons, Nat.add_eq_zero_iff, Nat.mul_eq_zero, or_iff_right hpow, ih, List.forall_mem_cons, ← BitVec.toNat_inj]
    rfl

theorem number_injective {limbs other : List (BitVec w)} (hw : 0 < w) (hlength : limbs.length = other.length)
    (h : number limbs = number other) : limbs = other := by
  have hlt (list : List (BitVec w)) : ∀ digit ∈ list.map BitVec.toNat, digit < 2 ^ w := by
    intro digit hdigit
    obtain ⟨x, -, rfl⟩ := List.mem_map.mp hdigit
    exact x.isLt
  have hdigits := Nat.ofDigits_inj_of_len_eq (Nat.one_lt_two_pow hw.ne') (by rw [List.length_map, List.length_map, hlength])
    (hlt limbs) (hlt other) h
  exact List.map_injective_iff.mpr (fun _ _ => BitVec.eq_of_toNat_eq) hdigits

end Number

section Low

variable {m low : Int} (hlow : 0 ≤ low) (hlt : low < m)

include hlow hlt

theorem mul_le_low_add (k z : Int) : m * k ≤ low + m * z ↔ k ≤ z := by
  constructor
  · intro h
    by_contra hk
    have hsucc : z + 1 ≤ k := Int.not_le.mp hk
    nlinarith
  · intro h
    nlinarith

theorem low_add_lt_mul (k z : Int) : low + m * z < m * k ↔ z < k := by
  rw [← Int.not_le, mul_le_low_add hlow hlt, Int.not_le]

theorem low_add_emod (z : Int) {k : Int} (hk : 0 < k) : (low + m * z) % (m * k) = low + m * (z % k) := by
  have hm : 0 ≤ m := Int.le_trans hlow (Int.le_of_lt hlt)
  have hrest := Int.emod_nonneg z hk.ne'
  have hsplit : low + m * z = low + m * (z % k) + z / k * (m * k) := by
    conv_lhs => rw [← Int.emod_add_mul_ediv z k]
    ring
  rw [hsplit, Int.add_mul_emod_self_right]
  apply Int.emod_eq_of_lt
  · positivity
  · rw [low_add_lt_mul hlow hlt]
    exact Int.emod_lt_of_pos z hk

theorem low_add_eq_zero {z : Int} (hz : 0 ≤ z) : low + m * z = 0 ↔ low = 0 ∧ z = 0 := by
  constructor
  · intro h
    have hz' : z ≤ 0 := by
      by_contra hz'
      have hone : 1 ≤ z := Int.not_le.mp hz'
      nlinarith
    have hzero : z = 0 := Int.le_antisymm hz' hz
    rw [hzero, Int.mul_zero, Int.add_zero] at h
    exact ⟨h, hzero⟩
  · rintro ⟨rfl, rfl⟩
    rw [Int.mul_zero, Int.add_zero]

end Low

theorem exactCodes_append {w v : Nat} (hw : 0 < w) {low : Int} (hlow : 0 ≤ low) (hlt : low < 2 ^ v) (u s : Int) :
    exactCodes (w + v) (low + 2 ^ v * u) (low + 2 ^ v * s) =
      { exactCodes w u s with zero := decide (low = 0) && (exactCodes w u s).zero } := by
  have hpow : (2 : Int) ^ (w + v) = 2 ^ v * 2 ^ w := by rw [Int.pow_add, Int.mul_comm]
  have hhalf : (2 : Int) ^ (w + v - 1) = 2 ^ v * 2 ^ (w - 1) := by
    rw [Nat.sub_add_comm hw, Int.pow_add, Int.mul_comm]
  have hle := mul_le_low_add hlow hlt
  have hlt' := low_add_lt_mul hlow hlt
  have hpositive : (0 : Int) < 2 ^ w := by positivity
  have hzero := low_add_eq_zero hlow hlt (Int.emod_nonneg u hpositive.ne')
  have hneg := hlt' 0 u
  rw [Int.mul_zero] at hneg
  simp only [exactCodes, hpow, hhalf, low_add_emod hlow hlt u hpositive, hzero, hle, hlt', hneg, ← Int.mul_neg,
    Bool.decide_and]

theorem toInt_joined_cons {w n : Nat} (hw : 0 < w) (hn : 0 < n) (x : BitVec w) {limbs : List (BitVec w)}
    (hlength : limbs.length = n) :
    (joined (n + 1) (x :: limbs)).toInt = x.toNat + 2 ^ w * (joined n limbs).toInt := by
  have hbits : 0 < n * w := Nat.mul_pos hn hw
  have hx : (x.toNat : Int) < 2 ^ w := by exact_mod_cast x.isLt
  have hx0 : (0 : Int) ≤ x.toNat := Int.natCast_nonneg _
  have hhalf : (2 : Int) ^ ((n + 1) * w - 1) = 2 ^ w * 2 ^ (n * w - 1) := by
    rw [Nat.succ_mul, Nat.sub_add_comm hbits, Int.pow_add, Int.mul_comm]
  have hnumber : ((joined (n + 1) (x :: limbs)).toNat : Int) = x.toNat + 2 ^ w * (joined n limbs).toNat := by
    rw [toNat_joined _ (congrArg (· + 1) hlength), toNat_joined _ hlength, number_cons]
    push_cast
    rfl
  -- The low word does not reach the top bit, so the two numbers cannot differ in sign.
  rcases toInt_cases (joined (n + 1) (x :: limbs)) (Nat.mul_pos (Nat.succ_pos n) hw) with ⟨h, hs⟩ | ⟨h, hs⟩
  all_goals rcases toInt_cases (joined n limbs) hbits with ⟨h', hs'⟩ | ⟨h', hs'⟩
  all_goals rw [hs, hs', hnumber]
  · rw [hnumber, hhalf, low_add_lt_mul hx0 hx] at h
    omega
  · rw [hnumber, hhalf, mul_le_low_add hx0 hx] at h
    omega
  · rw [hhalf]
    ring

theorem toInt_joined_singleton {w : Nat} (x : BitVec w) : (joined 1 [x]).toInt = x.toInt := by
  have hnumber : (joined 1 [x]).toNat = x.toNat := toNat_joined [x] rfl
  rw [BitVec.toInt_eq_toNat_cond, BitVec.toInt_eq_toNat_cond, hnumber, Nat.one_mul]

theorem exact_low {sign : Int} (hunit : sign = 1 ∨ sign = -1) {m x y : Int} (hx : 0 ≤ x) (hxm : x < m) (hy : 0 ≤ y)
    (hym : y < m) (carry : Bool) :
    let u := exact sign x y carry
    u = u % m + sign * m * (decide (u < 0 ∨ m ≤ u)).toNat := by
  intro u
  have hcarry : (carry.toNat : Int) ≤ 1 := by exact_mod_cast carry.toNat_le
  have hu : u = x + sign * (y + carry.toNat) := rfl
  by_cases hfits : u < 0 ∨ m ≤ u
  · rw [decide_eq_true hfits, Bool.toNat_true, Int.natCast_one, Int.mul_one]
    rcases hunit with rfl | rfl
    · rw [← Int.sub_emod_right, Int.emod_eq_of_lt (by omega) (by omega)]
      omega
    · rw [← Int.add_emod_right, Int.emod_eq_of_lt (by omega) (by omega)]
      omega
  · rw [decide_eq_false hfits, Bool.toNat_false, Int.natCast_zero, Int.mul_zero, Int.add_zero,
      Int.emod_eq_of_lt (by omega) (by omega)]

theorem exact_append {sign : Int} (hunit : sign = 1 ∨ sign = -1) {m x y : Int} (hx : 0 ≤ x) (hxm : x < m) (hy : 0 ≤ y)
    (hym : y < m) (a b : Int) (carry : Bool) :
    let u := exact sign x y carry
    exact sign (x + m * a) (y + m * b) carry = u % m + m * exact sign a b (decide (u < 0 ∨ m ≤ u)) := by
  intro u
  have hlow : u = u % m + sign * m * (decide (u < 0 ∨ m ≤ u)).toNat := exact_low hunit hx hxm hy hym carry
  have hsplit : exact sign (x + m * a) (y + m * b) carry = u + m * exact sign a b false := by
    simp only [u, exact, Bool.toNat_false]
    push_cast
    ring
  rw [hsplit]
  conv_lhs => rw [hlow]
  simp only [exact, Bool.toNat_false]
  push_cast
  ring

end Arithmetic

end Microcontroller
