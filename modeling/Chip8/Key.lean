/-!
# Physical keys

The keys of the host's keyboard that a frontend reports.  A block of four by four stands for the
keypad of the machine, the digit and letter keys at the left of the keyboard:

```text
keypad      keyboard
1 2 3 C     1 2 3 4
4 5 6 D     Q W E R
7 8 9 E     A S D F
A 0 B F     Z X C V
```
-/

namespace Chip8

/-- A key of the host's keyboard. -/
inductive Key where
  | num1 | num2 | num3 | num4
  | q | w | e | r
  | a | s | d | f
  | z | x | c | v
  /-- The space bar. -/
  | space
  /-- The key that ends a run. -/
  | escape
  /-- Any other key. -/
  | other
deriving DecidableEq

namespace Key

/-- All keys. -/
def all : List Key :=
  [num1, num2, num3, num4, q, w, e, r, a, s, d, f, z, x, c, v, space, escape, other]

/-- The key of the keypad that a key stands for. -/
def keypad? : Key → Option UInt8
  | num1 => some 0x1
  | num2 => some 0x2
  | num3 => some 0x3
  | num4 => some 0xC
  | q => some 0x4
  | w => some 0x5
  | e => some 0x6
  | r => some 0xD
  | a => some 0x7
  | s => some 0x8
  | d => some 0x9
  | f => some 0xE
  | z => some 0xA
  | x => some 0x0
  | c => some 0xB
  | v => some 0xF
  | space | escape | other => none

/-- The key that types a character, in upper or lower case. -/
def ofChar (char : Char) : Key :=
  match char.toLower with
  | '1' => num1
  | '2' => num2
  | '3' => num3
  | '4' => num4
  | 'q' => q
  | 'w' => w
  | 'e' => e
  | 'r' => r
  | 'a' => a
  | 's' => s
  | 'd' => d
  | 'f' => f
  | 'z' => z
  | 'x' => x
  | 'c' => c
  | 'v' => v
  | ' ' => space
  | _ => other

/-- The name of a key. -/
def name : Key → String
  | num1 => "Num1"
  | num2 => "Num2"
  | num3 => "Num3"
  | num4 => "Num4"
  | q => "Q"
  | w => "W"
  | e => "E"
  | r => "R"
  | a => "A"
  | s => "S"
  | d => "D"
  | f => "F"
  | z => "Z"
  | x => "X"
  | c => "C"
  | v => "V"
  | space => "Space"
  | escape => "Escape"
  | other => "None"

/-- The key with a name. -/
def ofName? (name : String) : Option Key := all.find? fun key => key.name == name

end Key

end Chip8
