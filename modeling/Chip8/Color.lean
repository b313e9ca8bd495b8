import Chip8.Outcome
import Chip8.Screen

/-!
# Colours and frame buffers

A frame buffer holds three bytes for each pixel, red, green and blue, from left to right and top to
bottom.  A picture of a screen is what the buffer should hold; it may be drawn into a buffer that is
larger, whose rest it leaves alone, or smaller, which it fills before it runs out of bounds.  The buffer
that a run begins with (`FrameBuffer.blank`) is as large as the picture of the machine's own screen.
-/

namespace Chip8

/-- A colour of 24 bits. -/
structure Color where
  /-- The red part. -/
  red : UInt8
  /-- The green part. -/
  green : UInt8
  /-- The blue part. -/
  blue : UInt8
deriving DecidableEq

/-- The bytes of a picture. -/
abbrev FrameBuffer := Array UInt8

namespace Color

/-- The colour of a dark pixel. -/
def black : Color := ⟨0, 0, 0⟩

/-- The green of a lit pixel. -/
def phosphor : Color := ⟨0x33, 0xFF, 0x66⟩

/-- The colour of a pixel. -/
def ofPixel (lit : Bool) : Color := if lit then phosphor else black

/-- The bytes of a colour in a frame buffer. -/
def bytes (c : Color) : List UInt8 := [c.red, c.green, c.blue]

end Color

namespace FrameBuffer

/-- A black buffer as large as the picture of the machine's own screen. -/
def blank : FrameBuffer := Array.replicate (3 * (Screen.defaultWidth * Screen.defaultHeight)) 0

theorem size_blank : blank.size = 6144 := by
  simp [blank, Screen.defaultWidth, Screen.defaultHeight]

/-- Replaces the bytes of a buffer from an offset on, as many as there are and the buffer holds. -/
def overlay (buffer : FrameBuffer) (offset : Nat) (bytes : Array UInt8) : FrameBuffer :=
  buffer.mapIdx fun place old => if offset ≤ place then bytes.getD (place - offset) old else old

/-- Writes bytes into a buffer from an offset on.  A buffer that is too small is filled to its
end. -/
def write (buffer : FrameBuffer) (offset : Nat) (bytes : Array UInt8) :
    Outcome FrameBuffer Failure Unit :=
  if offset + bytes.size ≤ buffer.size then .done (buffer.overlay offset bytes) ()
  else .fail (buffer.overlay offset bytes) .outOfBounds

/-- Writes the colour of the pixel with number `place`. -/
def writePixel (buffer : FrameBuffer) (place : Nat) (c : Color) :
    Outcome FrameBuffer Failure Unit :=
  buffer.write (3 * place) c.bytes.toArray

end FrameBuffer

/-- The bytes of a picture of the screen. -/
def Screen.picture (s : Screen) : Array UInt8 :=
  (s.pixels.toList.flatMap fun lit => (Color.ofPixel lit).bytes).toArray

/-- Draws a picture of the screen into a buffer. -/
def Screen.render (s : Screen) (buffer : FrameBuffer) : Outcome FrameBuffer Failure Unit :=
  buffer.write 0 s.picture

end Chip8
