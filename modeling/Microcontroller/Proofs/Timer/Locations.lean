import Microcontroller.Timer.Basic

namespace Microcontroller.Timer

def Location.offset : Location → Nat
  | control => 0
  | status => 1
  | high .count => 2
  | low .count => 3
  | high .compareA => 4
  | low .compareA => 5
  | high .compareB => 6
  | low .compareB => 7
  | high .capture => 8
  | low .capture => 9

def registerAddress (number : Fin 3) (location : Location) : Address :=
  BitVec.ofNat 32 (0x10 + 0x10 * number.val + location.offset)

theorem Location.offset_lt (location : Location) : location.offset < 16 := by
  cases location with
  | control | status => decide
  | high register | low register => cases register <;> decide

theorem toNat_registerAddress (number : Fin 3) (location : Location) :
    (registerAddress number location).toNat = 0x10 + 0x10 * number.val + location.offset := by
  have hlt := location.offset_lt
  rw [registerAddress, BitVec.toNat_ofNat, Nat.mod_eq_of_lt (by omega)]

theorem registerAddress_lt (number : Fin 3) (location : Location) : registerAddress number location < 0x40 := by
  have hlt := location.offset_lt
  rw [BitVec.lt_def, toNat_registerAddress]
  change _ < 0x40
  omega

theorem ofOffset?_eq_some {offset : BitVec 4} {location : Location} :
    Location.ofOffset? offset = some location ↔ offset.toNat = location.offset := by
  revert offset
  cases location with
  | control | status => decide
  | high register | low register => cases register <;> decide

theorem locate?_eq_some {a : Address} {number : Fin 3} {location : Location} :
    locate? a = some (number, location) ↔ a = registerAddress number location := by
  have hlt := location.offset_lt
  have hwindow : (a >>> 4).toNat = a.toNat / 16 := by
    rw [BitVec.toNat_ushiftRight, Nat.shiftRight_eq_div_pow]
  have hoffset : (a.setWidth 4).toNat = a.toNat % 16 := BitVec.toNat_setWidth ..
  have haddress : a = registerAddress number location ↔
      a.toNat = 0x10 + 0x10 * number.val + location.offset := by
    rw [← BitVec.toNat_inj, toNat_registerAddress]
  rw [haddress]
  unfold locate?
  simp only [hwindow]
  split
  next h =>
    simp only [Option.map_eq_some_iff, Prod.mk.injEq, Fin.ext_iff, exists_eq_right_right, ofOffset?_eq_some, hoffset]
    omega
  next h =>
    constructor
    · intro h'
      cases h'
    · intro h'
      omega

theorem locate?_registerAddress (number : Fin 3) (location : Location) :
    locate? (registerAddress number location) = some (number, location) := locate?_eq_some.mpr rfl

end Microcontroller.Timer
