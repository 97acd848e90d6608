/-!
Bytes, words and addresses. An address is a page followed by a 16-bit offset, so the processor itself
only ever forms addresses below `2 ^ 24`. A word is stored high byte first on an even address.
-/

namespace Microcontroller

abbrev Byte := BitVec 8

abbrev Word := BitVec 16

abbrev Long := BitVec 32

abbrev Address := BitVec 32

abbrev Register := Fin 8

instance neZero_registers : @NeZero Nat Zero.ofOfNat0 8 := ⟨Nat.succ_ne_zero 7⟩

def highByte (word : Word) : Byte := word.extractLsb' 8 8

def lowByte (word : Word) : Byte := word.setWidth 8

def wordOf (high low : Byte) : Word := high ++ low

theorem toNat_append_eq {m n : Nat} (high : BitVec m) (low : BitVec n) :
    (high ++ low).toNat = high.toNat <<< n + low.toNat := by
  rw [BitVec.toNat_append, ← Nat.shiftLeft_add_eq_or_of_lt low.isLt]

theorem toNat_wordOf (high low : Byte) : (wordOf high low).toNat = high.toNat * 256 + low.toNat := by
  rw [wordOf, toNat_append_eq, Nat.shiftLeft_eq]

theorem getLsbD_wordOf (high low : Byte) (i : Nat) :
    (wordOf high low).getLsbD i = if i < 8 then low.getLsbD i else high.getLsbD (i - 8) :=
  BitVec.getLsbD_append

@[simp] theorem highByte_wordOf (high low : Byte) : highByte (wordOf high low) = high := by
  apply BitVec.eq_of_getLsbD_eq
  intro i hi
  simp [highByte, getLsbD_wordOf, hi]

@[simp] theorem lowByte_wordOf (high low : Byte) : lowByte (wordOf high low) = low := by
  apply BitVec.eq_of_getLsbD_eq
  intro i hi
  simp [lowByte, getLsbD_wordOf, hi]

@[simp] theorem wordOf_bytes (word : Word) : wordOf (highByte word) (lowByte word) = word := by
  apply BitVec.eq_of_getLsbD_eq
  intro i hi
  rw [getLsbD_wordOf]
  by_cases h : i < 8
  · simp [lowByte, h]
  · have hs : 8 + (i - 8) = i := by omega
    simp [highByte, h, hs, show i - 8 < 8 by omega]

theorem long_of_byte (byte : Byte) : (byte.setWidth 16).setWidth 32 = byte.setWidth 32 := by
  simp

theorem word_of_long (word : Word) : (word.setWidth 32).setWidth 16 = word := by
  simp

theorem lowByte_of_long (word : Word) : (word.setWidth 32).setWidth 8 = lowByte word := by
  simp [lowByte]

def withLow (word : Word) (low : Byte) : Word := wordOf (highByte word) low

def swapBytes (word : Word) : Word := wordOf (lowByte word) (highByte word)

def displacement (byte : Byte) : Word := byte.signExtend 16

def address (page : Byte) (offset : Word) : Address := (page ++ offset).setWidth 32

def evenAddress (a : Address) : Address := a &&& ~~~1

def oddAddress (a : Address) : Address := a ||| 1

def registerField (byte : Byte) : Register := (byte.setWidth 3).toFin

end Microcontroller
