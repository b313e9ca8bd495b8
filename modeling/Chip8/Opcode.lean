import Chip8.Text.Hex

/-!
# Opcodes

An instruction word is two bytes, the high byte first.  Its four nibbles carry the operation and the
operands, so they are what the formats in `Chip8.Opcode.Format` are written over.
-/

namespace Chip8

/-- A 16-bit instruction word. -/
abbrev Opcode := UInt16

namespace Opcode

/-- The word made of two bytes, the high one first. -/
def ofBytes (high low : UInt8) : Opcode := high.toUInt16 <<< 8 ||| low.toUInt16

/-- The first byte of the word in memory. -/
def high (w : Opcode) : UInt8 := (w >>> 8).toUInt8

/-- The second byte of the word in memory. -/
def low (w : Opcode) : UInt8 := w.toUInt8

/-- The four nibbles of the word, most significant first. -/
def nibbles (w : Opcode) : List UInt8 :=
  [(w >>> 12).toUInt8, (w >>> 8 &&& 0xF).toUInt8, (w >>> 4 &&& 0xF).toUInt8, (w &&& 0xF).toUInt8]

/-- The two bytes as a list in hexadecimal, such as `[0A, FF]`. -/
def bytesText (w : Opcode) : String :=
  "[" ++ Text.Hex.padded 2 w.high.toNat ++ ", " ++ Text.Hex.padded 2 w.low.toNat ++ "]"

end Opcode

end Chip8
