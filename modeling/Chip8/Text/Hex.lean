/-!
# Hexadecimal numbers

Bytes, addresses and opcodes are written in upper-case hexadecimal and padded with zeros on the left
to a least width.  Escape sequences use lower case and no padding.  A number that needs more digits
than the width asks for is written in full, so no digit is ever lost.
-/

namespace Chip8.Text.Hex

/-- The digits of `n` in lower case, most significant first and without leading zeros. -/
def lower (n : Nat) : List Char := Nat.toDigits 16 n

/-- The digits of `n` in upper case, most significant first and without leading zeros. -/
def upper (n : Nat) : List Char := (Nat.toDigits 16 n).map Char.toUpper

/-- `n` in upper case with at least `width` digits. -/
def padded (width n : Nat) : String := String.ofList (List.leftpad width '0' (upper n))

/-- `n` behind the mark `0x`, in upper case with at least `width` digits. -/
def marked (width n : Nat) : String := "0x" ++ padded width n

end Chip8.Text.Hex
