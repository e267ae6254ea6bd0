/-!
# Hexadecimal text

`Hex.ofNat` writes a number with the fewest lower-case digits, and `Hex.ofByte` writes a byte with
exactly two.
-/

namespace Switchboard.Hex

/-- The digit of a number below sixteen. -/
def digit (n : Nat) : Char := Nat.digitChar (n % 16)

/-- The fewest digits that write a number. -/
def ofNat (n : Nat) : String := String.ofList (Nat.toDigits 16 n)

/-- The two digits of a byte. -/
def ofByte (byte : UInt8) : String :=
  String.ofList [digit (byte.toNat / 16), digit byte.toNat]

end Switchboard.Hex
