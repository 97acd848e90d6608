import Microcontroller.Word

namespace Microcontroller

inductive Size where
  | byte
  | word
  deriving DecidableEq

namespace Size

def ofWordBit (wide : Bool) : Size := if wide then .word else .byte

def field (byte : Byte) : Size := ofWordBit (byte.getLsbD 3)

def bits : Size → Nat
  | .byte => 8
  | .word => 16

def mask : Size → Long
  | .byte => 0xFF
  | .word => 0xFFFF

def signBit : Size → Long
  | .byte => 0x80
  | .word => 0x8000

def truncate (size : Size) (value : Long) : Long := value &&& size.mask

theorem truncate_toNat (size : Size) (value : Long) :
    (size.truncate value).toNat = value.toNat % (size.mask.toNat + 1) := by
  cases size with
  | byte => exact Nat.and_two_pow_sub_one_eq_mod value.toNat 8
  | word => exact Nat.and_two_pow_sub_one_eq_mod value.toNat 16

def signExtend : Size → Long → Long
  | .byte, value => (value.setWidth 8).signExtend 32
  | .word, value => (value.setWidth 16).signExtend 32

def isNegative (size : Size) (value : Long) : Bool := size.truncate value &&& size.signBit != 0

def isZero (size : Size) (value : Long) : Bool := size.truncate value == 0

def name : Size → String
  | .byte => "Byte"
  | .word => "Word"

end Size

end Microcontroller
