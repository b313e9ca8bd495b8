import Chip8.Fault

/-!
# Opcode formats

A format is a pattern of four characters, one for each nibble of an opcode, most significant first:

* a hexadecimal digit, for a nibble that has exactly this value;
* `X` or `Y`, for the number of a register;
* `N`, for a part of a constant.  A run of `N`s forms one constant, so `NNN` is an address, `NN` a
  byte and `N` a nibble.

Upper and lower case mean the same.  `Format.parse` reads a format, `Format.accepts` tells whether an
opcode has its fixed nibbles, and `Format.operands` reads the operands off such an opcode.
-/

namespace Chip8

/-- An operand as it stands in an opcode. -/
inductive Operand where
  /-- The number of a register. -/
  | register (number : UInt8)
  /-- A constant of up to sixteen bits. -/
  | constant (value : UInt16)
deriving DecidableEq

/-- What a format says of one nibble. -/
inductive Slot where
  /-- The nibble has exactly this value. -/
  | fixed (value : UInt8)
  /-- The nibble is the number of a register. -/
  | register
  /-- The nibble is a digit of a constant. -/
  | constant
deriving DecidableEq

namespace Slot

/-- The slot that a character stands for, if it stands for one. -/
def ofChar? (c : Char) : Option Slot :=
  let c := c.toUpper
  if c = 'X' ∨ c = 'Y' then some register
  else if c = 'N' then some constant
  else if '0' ≤ c ∧ c ≤ '9' then some (fixed (c.toNat - '0'.toNat).toUInt8)
  else if 'A' ≤ c ∧ c ≤ 'F' then some (fixed (c.toNat - 'A'.toNat + 10).toUInt8)
  else none

/-- The slots that characters stand for, or the first character that stands for none. -/
def ofChars : List Char → Except Char (List Slot)
  | [] => .ok []
  | c :: rest =>
    match ofChar? c with
    | none => .error c
    | some slot => (ofChars rest).map (slot :: ·)

/-- Whether a nibble may stand in the slot. -/
def accepts (nibble : UInt8) : Slot → Bool
  | fixed value => value == nibble
  | register | constant => true

end Slot

/-- Why a text is not a format. -/
inductive FormatFlaw where
  /-- A format has four characters, this text has `count`. -/
  | length (count : Nat)
  /-- The leftmost character that stands for no slot. -/
  | symbol (c : Char)
deriving DecidableEq

/-- The wording of a flaw. -/
def FormatFlaw.message : FormatFlaw → String
  | length count => "expected 4 characters, got " ++ toString count
  | symbol c => "unexpected symbol " ++ Text.Quoted.char c

/-- A format: its text in upper case and what it says of each nibble. -/
structure Format where
  /-- The four characters in upper case. -/
  text : String
  /-- The slots, one for each nibble, most significant first. -/
  slots : List Slot
deriving DecidableEq

namespace Format

/-- Reads the format written in `text`.  The length is judged before the characters. -/
def parse (text : String) : Except Fault Format :=
  let chars := text.toList
  if chars.length ≠ 4 then
    .error (.malformedFormat text (FormatFlaw.length chars.length).message)
  else
    match Slot.ofChars chars with
    | .error c => .error (.malformedFormat text (FormatFlaw.symbol c).message)
    | .ok slots => .ok { text := String.ofList (chars.map Char.toUpper), slots }

/-- Whether every fixed nibble of the format stands in the opcode. -/
def accepts (f : Format) (w : Opcode) : Bool :=
  (f.slots.zip w.nibbles).all fun (slot, nibble) => slot.accepts nibble

/-- The constant that a run of `N`s has formed, as a list of at most one operand. -/
def closeRun (run : Option UInt16) : List Operand := run.toList.map .constant

/-- Reads operands off slots and their nibbles from left to right, `run` being the value of the
constant that the slots just before have begun. -/
def readOperands (run : Option UInt16) : List (Slot × UInt8) → List Operand
  | [] => closeRun run
  | (.fixed _, _) :: rest => closeRun run ++ readOperands none rest
  | (.register, nibble) :: rest => closeRun run ++ .register nibble :: readOperands none rest
  | (.constant, nibble) :: rest =>
    readOperands (some (run.getD 0 <<< 4 ||| nibble.toUInt16)) rest

/-- The operands of an opcode in the order in which they stand in it. -/
def operands (f : Format) (w : Opcode) : Except Fault (List Operand) :=
  if f.accepts w then .ok (readOperands none (f.slots.zip w.nibbles))
  else .error (.formatMismatch w f.text)

end Format

namespace Opcode

/-- Whether the opcode is accepted by the format written in `format`. -/
def fits (w : Opcode) (format : String) : Except Fault Bool := do
  return (← Format.parse format).accepts w

/-- The operands of the opcode by the format written in `format`. -/
def operandsBy (w : Opcode) (format : String) : Except Fault (List Operand) := do
  (← Format.parse format).operands w

end Opcode

end Chip8
