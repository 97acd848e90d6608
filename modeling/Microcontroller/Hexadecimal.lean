import Microcontroller.Word

namespace Microcontroller.Hexadecimal

def digit (n : Nat) : Char := if n < 10 then Char.ofNat (48 + n) else Char.ofNat (55 + n)

def digits : Nat → Nat → List Char
  | 0, _ => []
  | count + 1, n => digits count (n / 16) ++ [digit (n % 16)]

def ofByte (byte : Byte) : String := "0x" ++ String.ofList (digits 2 byte.toNat)

def ofWord (word : Word) : String := "0x" ++ String.ofList (digits 4 word.toNat)

end Microcontroller.Hexadecimal
