import Microcontroller.Proofs.Dialogue.Frame

namespace Microcontroller

theorem toNat_address (page : Byte) (offset : Word) :
    (address page offset).toNat = page.toNat * 0x10000 + offset.toNat := by
  have hpage := page.isLt
  have hoffset := offset.isLt
  rw [address, BitVec.toNat_setWidth, toNat_append_eq, Nat.shiftLeft_eq]
  exact Nat.mod_eq_of_lt (by omega)

theorem toNat_address_zero (offset : Word) : (address 0 offset).toNat = offset.toNat :=
  (toNat_address 0 offset).trans (Nat.zero_add _)

theorem getLsbD_evenAddress (a : Address) (i : Nat) :
    (evenAddress a).getLsbD i = (a.getLsbD i && decide (i ≠ 0)) := by
  by_cases hi : i < 32
  · simp [evenAddress, hi, -BitVec.reduceNot]
  · simp [evenAddress, BitVec.getLsbD_of_ge a i (by omega)]

theorem getLsbD_oddAddress (a : Address) (i : Nat) :
    (oddAddress a).getLsbD i = (a.getLsbD i || decide (i = 0)) := by
  simp [oddAddress, BitVec.getLsbD_one]

theorem evenAddress_ne_oddAddress (a b : Address) : evenAddress a ≠ oddAddress b := by
  intro h
  have hbit := congrArg (fun c : Address => c.getLsbD 0) h
  change (evenAddress a).getLsbD 0 = (oddAddress b).getLsbD 0 at hbit
  rw [getLsbD_evenAddress, getLsbD_oddAddress] at hbit
  simp at hbit

theorem half_eq {a b : Address} (h : ∀ i, a.getLsbD (i + 1) = b.getLsbD (i + 1)) :
    a.toNat / 2 = b.toNat / 2 := by
  have hshift : a >>> 1 = b >>> 1 := by
    apply BitVec.eq_of_getLsbD_eq
    intro i _
    rw [BitVec.getLsbD_ushiftRight, BitVec.getLsbD_ushiftRight, Nat.add_comm, h]
  have hnat := congrArg BitVec.toNat hshift
  rwa [BitVec.toNat_ushiftRight, BitVec.toNat_ushiftRight, Nat.shiftRight_eq_div_pow, Nat.shiftRight_eq_div_pow] at hnat

theorem toNat_evenAddress (a : Address) : (evenAddress a).toNat = a.toNat / 2 * 2 := by
  have hhalf : (evenAddress a).toNat / 2 = a.toNat / 2 := half_eq fun i => by simp [getLsbD_evenAddress]
  have hparity : (evenAddress a).toNat % 2 = 0 := by simpa [BitVec.getLsbD] using getLsbD_evenAddress a 0
  omega

theorem toNat_oddAddress (a : Address) : (oddAddress a).toNat = a.toNat / 2 * 2 + 1 := by
  have hhalf : (oddAddress a).toNat / 2 = a.toNat / 2 := half_eq fun i => by simp [getLsbD_oddAddress]
  have hparity : (oddAddress a).toNat % 2 = 1 := by simpa [BitVec.getLsbD] using getLsbD_oddAddress a 0
  omega

theorem half_of_evenAddress_eq {a b : Address} (h : evenAddress a = evenAddress b) : a.toNat / 2 = b.toNat / 2 := by
  apply half_eq
  intro i
  have hbit := congrArg (fun c : Address => c.getLsbD (i + 1)) h
  simpa [getLsbD_evenAddress] using hbit

theorem half_of_oddAddress_eq {a b : Address} (h : oddAddress a = oddAddress b) : a.toNat / 2 = b.toNat / 2 := by
  apply half_eq
  intro i
  have hbit := congrArg (fun c : Address => c.getLsbD (i + 1)) h
  simpa [getLsbD_oddAddress] using hbit

theorem toNat_and_even (offset : Word) : (offset &&& 0xFFFE).toNat = offset.toNat / 2 * 2 := by
  have hlt := offset.isLt
  have hhalf : (offset.toNat &&& 0xFFFE) / 2 = offset.toNat / 2 := by
    rw [Nat.and_div_two]
    exact (Nat.and_two_pow_sub_one_eq_mod _ 15).trans (Nat.mod_eq_of_lt (by omega))
  have hparity : (offset.toNat &&& 0xFFFE) % 2 = 0 := (Nat.and_mod_two_pow (n := 1)).trans (Nat.and_zero _)
  rw [BitVec.toNat_and]
  change offset.toNat &&& 0xFFFE = _
  omega

theorem toNat_and_even_succ (offset : Word) : ((offset &&& 0xFFFE) + 1).toNat = (offset &&& 0xFFFE).toNat + 1 := by
  have hlt := offset.isLt
  have heven := toNat_and_even offset
  rw [BitVec.toNat_add]
  change (_ + 1) % 65536 = _
  omega

theorem evenAddress_address (page : Byte) (offset : Word) :
    evenAddress (address page offset) = address page (offset &&& 0xFFFE) := by
  apply BitVec.eq_of_toNat_eq
  rw [toNat_evenAddress, toNat_address, toNat_address, toNat_and_even]
  omega

theorem oddAddress_address (page : Byte) (offset : Word) :
    oddAddress (address page offset) = address page ((offset &&& 0xFFFE) + 1) := by
  apply BitVec.eq_of_toNat_eq
  rw [toNat_oddAddress, toNat_address, toNat_address, toNat_and_even_succ, toNat_and_even]
  omega

section Parity

variable {offset : Word}

theorem toNat_mod_two (offset : Word) : offset.toNat % 2 = (offset.getLsbD 0).toNat := by
  rw [BitVec.getLsbD, Nat.testBit_zero]
  by_cases h : offset.toNat % 2 = 1
  · rw [h]
    rfl
  · rw [decide_eq_false h]
    exact Nat.mod_two_ne_one.mp h

theorem and_even_of_even (h : offset.getLsbD 0 = false) : offset &&& 0xFFFE = offset := by
  have hparity := toNat_mod_two offset
  rw [h, Bool.toNat_false] at hparity
  apply BitVec.eq_of_toNat_eq
  rw [toNat_and_even]
  omega

theorem and_even_of_odd (h : offset.getLsbD 0 = true) : (offset - 1) &&& 0xFFFE = offset &&& 0xFFFE := by
  have hlt := offset.isLt
  have hparity := toNat_mod_two offset
  rw [h, Bool.toNat_true] at hparity
  apply BitVec.eq_of_toNat_eq
  rw [toNat_and_even, toNat_and_even, BitVec.toNat_sub]
  change (65536 - 1 + _) % 65536 / 2 * 2 = _
  omega

end Parity

namespace Memory

def wordAt (m : Memory) (a : Address) : Word := wordOf (m.read (evenAddress a)) (m.read (oddAddress a))

def storeWord (m : Memory) (a : Address) (value : Word) : Memory :=
  (m.write (evenAddress a) (highByte value)).write (oddAddress a) (lowByte value)

theorem wordAt_storeWord (m : Memory) (a : Address) (value : Word) : (m.storeWord a value).wordAt a = value := by
  have hne := evenAddress_ne_oddAddress a a
  rw [wordAt, storeWord, read_write, read_write, read_write, if_neg hne, if_pos rfl, if_pos rfl, wordOf_bytes]

theorem read_storeWord_eq (m : Memory) (a b : Address) (value : Word) :
    (m.storeWord a value).read b =
      if b = evenAddress a then highByte value else if b = oddAddress a then lowByte value else m.read b := by
  have hne := evenAddress_ne_oddAddress a a
  rw [storeWord, read_write, read_write]
  by_cases heven : b = evenAddress a
  · rw [heven, if_neg hne, if_pos rfl, if_pos rfl]
  · rw [if_neg heven, if_neg heven]

theorem read_storeWord (m : Memory) {a b : Address} (value : Word) (heven : b ≠ evenAddress a)
    (hodd : b ≠ oddAddress a) : (m.storeWord a value).read b = m.read b := by
  rw [read_storeWord_eq, if_neg heven, if_neg hodd]

theorem storeWord_storeWord (m : Memory) (a : Address) (value other : Word) :
    (m.storeWord a value).storeWord a other = m.storeWord a other := by
  funext b
  change ((m.storeWord a value).storeWord a other).read b = (m.storeWord a other).read b
  rw [read_storeWord_eq, read_storeWord_eq, read_storeWord_eq]
  split
  · rfl
  · split <;> rfl

theorem wordAt_storeWord_of_ne (m : Memory) {a b : Address} (value : Word) (h : a.toNat / 2 ≠ b.toNat / 2) :
    (m.storeWord a value).wordAt b = m.wordAt b := by
  have heven : evenAddress b ≠ evenAddress a := fun heq => h (half_of_evenAddress_eq heq.symm)
  have hodd : oddAddress b ≠ oddAddress a := fun heq => h (half_of_oddAddress_eq heq.symm)
  rw [wordAt, read_storeWord m value heven (evenAddress_ne_oddAddress b a),
    read_storeWord m value (evenAddress_ne_oddAddress a b).symm hodd, wordAt]

end Memory

end Microcontroller
