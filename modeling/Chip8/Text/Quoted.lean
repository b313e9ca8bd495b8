import Chip8.Text.Hex
import Chip8.Text.Unprinted

/-!
# Quoted text

Text from outside is shown between quotes so that every character of it can be told: tab, line feed,
carriage return, NUL, the backslash and the surrounding quote are escaped by a backslash and a
letter, and a character without a printed form by its code point in braces.  Everything else stands
as it is, the other kind of quote included.
-/

namespace Chip8.Text.Quoted

/-- The quoted form of one character between marks `mark`. -/
def escape (mark c : Char) : List Char :=
  if c = '\t' then ['\\', 't']
  else if c = '\n' then ['\\', 'n']
  else if c = '\r' then ['\\', 'r']
  else if c = '\x00' then ['\\', '0']
  else if c = '\\' then ['\\', '\\']
  else if c = mark then ['\\', mark]
  else if isUnprinted c then ['\\', 'u', '\x7b'] ++ Hex.lower c.toNat ++ ['\x7d']
  else [c]

/-- A string between double quotes. -/
def string (s : String) : String :=
  String.ofList ('"' :: s.toList.flatMap (escape '"') ++ ['"'])

/-- A character between single quotes. -/
def char (c : Char) : String :=
  String.ofList ('\'' :: escape '\'' c ++ ['\''])

/-- A list of strings, each in double quotes, between brackets. -/
def list (strings : List String) : String :=
  "[" ++ ", ".intercalate (strings.map string) ++ "]"

end Chip8.Text.Quoted
