/-!
# The font

The glyphs of the sixteen hexadecimal digits, five rows of one byte each, which the machine keeps at
the start of its memory.
-/

namespace Chip8.Font

/-- The number of rows of a glyph. -/
def glyphSize : Nat := 5

/-- The glyphs of the digits 0 to F. -/
def glyphs : List (List UInt8) := [
  [0xF0, 0x90, 0x90, 0x90, 0xF0],
  [0x20, 0x60, 0x20, 0x20, 0x70],
  [0xF0, 0x10, 0xF0, 0x80, 0xF0],
  [0xF0, 0x10, 0xF0, 0x10, 0xF0],
  [0x90, 0x90, 0xF0, 0x10, 0x10],
  [0xF0, 0x80, 0xF0, 0x10, 0xF0],
  [0xF0, 0x80, 0xF0, 0x90, 0xF0],
  [0xF0, 0x10, 0x20, 0x40, 0x40],
  [0xF0, 0x90, 0xF0, 0x90, 0xF0],
  [0xF0, 0x90, 0xF0, 0x10, 0xF0],
  [0xF0, 0x90, 0xF0, 0x90, 0x90],
  [0xE0, 0x90, 0xE0, 0x90, 0xE0],
  [0xF0, 0x80, 0x80, 0x80, 0xF0],
  [0xE0, 0x90, 0x90, 0x90, 0xE0],
  [0xF0, 0x80, 0xF0, 0x80, 0xF0],
  [0xF0, 0x80, 0xF0, 0x80, 0x80]]

/-- The bytes of the font in memory. -/
def bytes : Array UInt8 := glyphs.flatten.toArray

/-- The number of bytes of the font. -/
def size : Nat := 80

/-- The address of the glyph of a digit; only the low nibble of the digit counts. -/
def address (digit : UInt8) : UInt16 := (digit &&& 0xF).toUInt16 * 5

theorem toNat_address (digit : UInt8) : (address digit).toNat = 5 * (digit.toNat % 16) := by
  have hmask : (digit &&& 0xF).toNat = digit.toNat % 16 := by
    rw [UInt8.toNat_and]
    exact Nat.and_two_pow_sub_one_eq_mod digit.toNat 4
  rw [address, UInt16.toNat_mul, UInt8.toNat_toUInt16, hmask]
  simp only [UInt16.reduceToNat]
  omega

/-- The glyphs stand in memory one behind the other. -/
theorem getElem?_bytes :
    ∀ digit < 16, ∀ row < glyphSize,
      bytes[glyphSize * digit + row]? = glyphs[digit]?.bind fun glyph => glyph[row]? := by
  decide

end Chip8.Font
