import Chip8.Outcome

/-!
# The screen

A screen is a grid of pixels, row by row, and a note whether it has changed since the note was last
taken.  Coordinates wrap around both edges, so every pair of numbers names a pixel of a screen that
has one (`Screen.index_lt`).  Pixels are written by exclusive or; a write that turns a lit pixel off
is a collision.
-/

namespace Chip8

/-- A screen of `height` rows and `width` columns. -/
structure Screen where
  /-- The number of rows. -/
  height : Nat
  /-- The number of columns. -/
  width : Nat
  /-- The pixels from left to right and top to bottom; `true` is lit. -/
  pixels : Array Bool
  /-- Whether the screen may have changed since this was last asked. -/
  dirty : Bool
deriving DecidableEq

namespace Screen

/-- The number of rows of the machine's own screen. -/
def defaultHeight : Nat := 32

/-- The number of columns of the machine's own screen. -/
def defaultWidth : Nat := 64

/-- A dark screen that nobody has seen yet. -/
def dark (height width : Nat) : Screen :=
  { height, width, pixels := Array.replicate (height * width) false, dirty := true }

/-- The machine's own screen. -/
def standard : Screen := dark defaultHeight defaultWidth

/-- The place of a pixel in the grid, after wrapping around the edges. -/
def index (s : Screen) (y x : Nat) : Nat := y % s.height * s.width + x % s.width

/-- A screen that has pixels has one at every pair of coordinates. -/
theorem index_lt {s : Screen} (hheight : 0 < s.height) (hwidth : 0 < s.width) (y x : Nat) :
    s.index y x < s.height * s.width := by
  have hy : y % s.height + 1 ≤ s.height := Nat.mod_lt y hheight
  calc s.index y x
    _ < y % s.height * s.width + s.width := Nat.add_lt_add_left (Nat.mod_lt x hwidth) _
    _ = (y % s.height + 1) * s.width := by rw [Nat.add_mul, Nat.one_mul]
    _ ≤ s.height * s.width := Nat.mul_le_mul_right _ hy

/-- The pixel at row `y` and column `x`; a screen without pixels has none. -/
def pixel? (s : Screen) (y x : Nat) : Option Bool := s.pixels[s.index y x]?

/-- Combines a bit with the pixel at row `y` and column `x` by exclusive or.  The answer tells
whether a lit pixel was turned off. -/
def flip (s : Screen) (y x : Nat) (bit : Bool) : Outcome Screen Failure Bool :=
  let place := s.index y x
  if h : place < s.pixels.size then
    let old := s.pixels[place]
    .done { s with pixels := s.pixels.set place (old ^^ bit), dirty := s.dirty || bit } (old && bit)
  else
    .fail s .outOfBounds

/-- Writes a pixel with a number that must be 0 or 1. -/
def setPixel (s : Screen) (y x : Nat) (value : UInt8) : Outcome Screen Failure Bool :=
  if value = 0 then s.flip y x false
  else if value = 1 then s.flip y x true
  else .refuse s (.invalidPixel value)

/-- A bit to be written at a row and a column. -/
structure Dot where
  /-- The row. -/
  y : Nat
  /-- The column. -/
  x : Nat
  /-- Whether the pixel is to be flipped. -/
  bit : Bool
deriving DecidableEq

/-- Writes dots one after the other.  The answer tells whether any of them turned a lit pixel off, or
`collided` if one has done so before. -/
def plot (s : Screen) (collided : Bool) : List Dot → Outcome Screen Failure Bool
  | [] => .done s collided
  | dot :: rest =>
    match s.flip dot.y dot.x dot.bit with
    | ⟨s, .ok hit⟩ => plot s (collided || hit) rest
    | ⟨s, .error failure⟩ => .fail s failure

/-- Turns every pixel off. -/
def clear (s : Screen) : Screen :=
  { s with pixels := Array.replicate s.pixels.size false, dirty := true }

/-- The screen with its note taken. -/
def clean (s : Screen) : Screen := { s with dirty := false }

/-- The rows of pixels from top to bottom. -/
def rows (s : Screen) : List (List Bool) :=
  (List.range s.height).map fun y =>
    (List.range s.width).map fun x => s.pixels.getD (y * s.width + x) false

/-- The text of one row, `#` for a lit pixel and `.` for a dark one. -/
def rowText (row : List Bool) : String :=
  String.ofList (row.map fun lit => if lit then '#' else '.')

/-- The rows as lines of text, each ended by a line feed. -/
def text (s : Screen) : String := String.join (s.rows.map fun row => rowText row ++ "\n")

/-- The rows with a lit pixel by their numbers. -/
def litRows (s : Screen) : List (Nat × String) :=
  (s.rows.zipIdx.filter fun (row, _) => row.contains true).map fun (row, y) => (y, rowText row)

/-- The number of lit pixels. -/
def lit (s : Screen) : Nat := s.pixels.count true

end Screen

/-- The eight bits of a sprite row from left to right, the most significant bit first. -/
def spriteBits (row : UInt8) : List Bool :=
  (List.range 8).map fun column => row.toNat.testBit (7 - column)

/-- The dots of a sprite whose upper left corner is at row `y` and column `x`, row by row. -/
def spriteDots (y x : Nat) (sprite : List UInt8) : List Screen.Dot :=
  sprite.zipIdx.flatMap fun (row, down) =>
    (spriteBits row).zipIdx.map fun (bit, right) => { y := y + down, x := x + right, bit }

end Chip8
