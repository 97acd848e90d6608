import Microcontroller.Word

namespace Microcontroller.Rotation

variable {w : Nat} (x : BitVec w) (k : Nat)

theorem position_eq {i : Nat} (hi : i < w) :
    (i + k) % w = if i + k % w < w then i + k % w else i + k % w - w := by
  have hk : k % w < w := Nat.mod_lt k (Nat.zero_lt_of_lt hi)
  rw [← Nat.add_mod_mod]
  split
  next h => exact Nat.mod_eq_of_lt h
  next h => rw [Nat.mod_eq_sub_mod (Nat.not_lt.mp h), Nat.mod_eq_of_lt (by omega)]

theorem getLsbD_rotateLeft {i : Nat} (hi : i < w) : (x.rotateLeft k).getLsbD ((i + k) % w) = x.getLsbD i := by
  have hk : k % w < w := Nat.mod_lt k (Nat.zero_lt_of_lt hi)
  rw [position_eq k hi, BitVec.getLsbD_rotateLeft]
  split
  next h => rw [decide_eq_false (by omega), cond_false, decide_eq_true h, Bool.true_and, Nat.add_sub_cancel]
  next h =>
    rw [decide_eq_true (by omega), cond_true]
    congr 1
    omega

theorem getLsbD_rotateRight {i : Nat} (hi : i < w) : (x.rotateRight k).getLsbD i = x.getLsbD ((i + k) % w) := by
  have hk : k % w < w := Nat.mod_lt k (Nat.zero_lt_of_lt hi)
  rw [position_eq k hi, BitVec.getLsbD_rotateRight]
  split
  next h => rw [decide_eq_true (by omega), cond_true, Nat.add_comm]
  next h =>
    rw [decide_eq_false (by omega), cond_false, decide_eq_true hi, Bool.true_and]
    congr 1
    omega

theorem exists_position {j : Nat} (hj : j < w) : ∃ i < w, (i + k) % w = j := by
  have hw : 0 < w := Nat.zero_lt_of_lt hj
  have hk : k % w < w := Nat.mod_lt k hw
  refine ⟨(j + (w - k % w)) % w, Nat.mod_lt _ hw, ?_⟩
  rw [Nat.mod_add_mod, ← Nat.add_mod_mod, show j + (w - k % w) + k % w = j + w by omega, Nat.add_mod_right,
    Nat.mod_eq_of_lt hj]

theorem eq_rotateLeft {x y : BitVec w} (h : ∀ i < w, y.getLsbD ((i + k) % w) = x.getLsbD i) : y = x.rotateLeft k := by
  apply BitVec.eq_of_getLsbD_eq
  intro j hj
  obtain ⟨i, hi, rfl⟩ := exists_position k hj
  rw [h i hi, getLsbD_rotateLeft x k hi]

theorem rotateLeft_add (j : Nat) : x.rotateLeft (k + j) = (x.rotateLeft k).rotateLeft j := by
  symm
  apply eq_rotateLeft
  intro i hi
  rw [← Nat.add_assoc, ← Nat.mod_add_mod, getLsbD_rotateLeft _ j (Nat.mod_lt _ (Nat.zero_lt_of_lt hi)),
    getLsbD_rotateLeft x k hi]

theorem rotateRight_add (j : Nat) : x.rotateRight (k + j) = (x.rotateRight k).rotateRight j := by
  apply BitVec.eq_of_getLsbD_eq
  intro i hi
  rw [getLsbD_rotateRight _ j hi, getLsbD_rotateRight x k (Nat.mod_lt _ (Nat.zero_lt_of_lt hi)),
    getLsbD_rotateRight x (k + j) hi, Nat.mod_add_mod, Nat.add_assoc, Nat.add_comm j]

theorem rotateRight_rotateLeft : (x.rotateLeft k).rotateRight k = x := by
  apply BitVec.eq_of_getLsbD_eq
  intro i hi
  rw [getLsbD_rotateRight _ k hi, getLsbD_rotateLeft x k hi]

theorem rotateLeft_rotateRight : (x.rotateRight k).rotateLeft k = x := by
  symm
  apply eq_rotateLeft
  intro i hi
  rw [getLsbD_rotateRight x k hi]

theorem rotateLeft_width : x.rotateLeft w = x := by
  symm
  apply eq_rotateLeft
  intro i hi
  rw [Nat.add_mod_right, Nat.mod_eq_of_lt hi]

theorem rotateRight_width : x.rotateRight w = x := by
  apply BitVec.eq_of_getLsbD_eq
  intro i hi
  rw [getLsbD_rotateRight x w hi, Nat.add_mod_right, Nat.mod_eq_of_lt hi]

theorem cons_inj {b c : Bool} {x y : BitVec w} (h : BitVec.cons b x = BitVec.cons c y) : b = c ∧ x = y := by
  constructor
  · have hmsb := congrArg BitVec.msb h
    rwa [BitVec.msb_cons, BitVec.msb_cons] at hmsb
  · have hlow := congrArg (BitVec.setWidth w) h
    rwa [BitVec.setWidth_cons, BitVec.setWidth_cons] at hlow

end Microcontroller.Rotation
