import Chip8.Color
import Chip8.Proofs.Screen.Grid

/-!
# Pictures of a screen

A picture of a screen has three bytes for each pixel.  A host draws it only when the note of the
screen says that it may have changed, so what matters is that no write changes a pixel behind the back
of the note.

* `Screen.Noted`: a screen and a later one whose note tells of a change.  Every write keeps it.
* `Screen.getElem?_picture`: the byte of a picture at a pixel and a part of its colour.
* `FrameBuffer.Shows`: a buffer that begins with the picture of a screen.  Drawing a screen makes it so
  (`Screen.shows_render`) and leaves the rest of the buffer alone (`Screen.render_behind`).
-/

namespace Chip8

namespace Screen

/-! ## The note -/

/-- The screen is as it was before, or its note says that it may have changed. -/
def Noted (s s' : Screen) : Prop := s' = s ∨ s'.dirty = true

theorem Noted.refl (s : Screen) : Noted s s := .inl rfl

theorem Noted.trans {s s' s'' : Screen} (h : Noted s s') (h' : Noted s' s'') : Noted s s'' := by
  obtain rfl | hdirty := h'
  · exact h
  · exact .inr hdirty

theorem noted_clear (s : Screen) : Noted s s.clear := .inr rfl

/-- A bit that is not set changes neither a pixel nor the note. -/
theorem noted_flip (s : Screen) (y x : Nat) (bit : Bool) : Noted s (s.flip y x bit).state := by
  unfold flip
  dsimp only
  split
  · cases bit with
    | false => exact .inl (by simp [Outcome.done])
    | true => exact .inr (by simp [Outcome.done])
  · exact .refl s

theorem noted_setPixel (s : Screen) (y x : Nat) (value : UInt8) :
    Noted s (s.setPixel y x value).state := by
  unfold setPixel
  split
  · exact s.noted_flip y x false
  · split
    · exact s.noted_flip y x true
    · exact .refl s

theorem noted_plot (s : Screen) (collided : Bool) (dots : List Dot) :
    Noted s (s.plot collided dots).state := by
  induction dots generalizing s collided with
  | nil => exact .refl s
  | cons dot dots ih =>
    have hflip := s.noted_flip dot.y dot.x dot.bit
    rw [plot]
    generalize s.flip dot.y dot.x dot.bit = outcome at hflip ⊢
    obtain ⟨s', _ | hit⟩ := outcome
    · exact hflip
    · exact hflip.trans (ih s' (collided || hit))

/-! ## The bytes of a picture -/

/-- Each pixel of a list takes three bytes. -/
theorem length_flatMap_bytes (pixels : List Bool) :
    (pixels.flatMap fun lit => (Color.ofPixel lit).bytes).length = 3 * pixels.length := by
  induction pixels with
  | nil => rfl
  | cons lit pixels ih =>
    have hbytes : (Color.ofPixel lit).bytes.length = 3 := rfl
    rw [List.flatMap_cons, List.length_append, ih, hbytes, List.length_cons]
    omega

theorem getElem?_flatMap_bytes (pixels : List Bool) (place : Nat) {part : Nat} (hpart : part < 3) :
    (pixels.flatMap fun lit => (Color.ofPixel lit).bytes)[3 * place + part]? =
      pixels[place]?.bind fun lit => (Color.ofPixel lit).bytes[part]? := by
  induction pixels generalizing place with
  | nil => rfl
  | cons lit pixels ih =>
    have hbytes : (Color.ofPixel lit).bytes.length = 3 := rfl
    rw [List.flatMap_cons]
    cases place with
    | zero => rw [List.getElem?_append_left (by omega)]; simp
    | succ place =>
      rw [List.getElem?_append_right (by omega), List.getElem?_cons_succ, ← ih place, hbytes]
      congr 1
      omega

theorem size_picture (s : Screen) : s.picture.size = 3 * s.pixels.size := by
  simp only [picture, List.size_toArray, length_flatMap_bytes, Array.length_toList]

/-- The bytes of a picture are the parts of the colours of the pixels, row by row. -/
theorem getElem?_picture {s : Screen} (hs : s.WellFormed) {y x : Nat} (hy : y < s.height)
    (hx : x < s.width) {part : Nat} (hpart : part < 3) :
    ∃ lit, s.pixel? y x = some lit ∧
      s.picture[3 * (s.width * y + x) + part]? = (Color.ofPixel lit).bytes[part]? := by
  have hplace : s.index y x = s.width * y + x := by
    rw [index, Nat.mod_eq_of_lt hy, Nat.mod_eq_of_lt hx, Nat.mul_comm]
  have hlt := hs.index_lt y x
  refine ⟨s.pixels[s.index y x], Array.getElem?_eq_getElem hlt, ?_⟩
  simp only [picture, List.getElem?_toArray]
  rw [getElem?_flatMap_bytes _ _ hpart, ← hplace, Array.getElem?_toList,
    Array.getElem?_eq_getElem hlt, Option.bind_some]

end Screen

/-! ## Drawing into a buffer -/

namespace FrameBuffer

theorem size_overlay (buffer : FrameBuffer) (offset : Nat) (bytes : Array UInt8) :
    (buffer.overlay offset bytes).size = buffer.size := by
  simp [overlay]

theorem getElem?_overlay_zero (buffer : FrameBuffer) (bytes : Array UInt8) (place : Nat) :
    (buffer.overlay 0 bytes)[place]? = buffer[place]?.map fun old => bytes.getD place old := by
  simp [overlay]

/-- The buffer begins with the picture of the screen. -/
def Shows (buffer : FrameBuffer) (s : Screen) : Prop :=
  ∀ place < 3 * s.pixels.size, buffer[place]? = s.picture[place]?

end FrameBuffer

namespace Screen

variable {s : Screen} {buffer : FrameBuffer}

theorem render_eq (h : 3 * s.pixels.size ≤ buffer.size) :
    s.render buffer = .done (buffer.overlay 0 s.picture) () := by
  rw [render, FrameBuffer.write, if_pos (by rw [size_picture]; omega)]

theorem shows_render (h : 3 * s.pixels.size ≤ buffer.size) :
    FrameBuffer.Shows (buffer.overlay 0 s.picture) s := by
  intro place hplace
  have hpicture : place < s.picture.size := by rwa [size_picture]
  have hbuffer : place < buffer.size := by omega
  rw [FrameBuffer.getElem?_overlay_zero, Array.getElem?_eq_getElem hbuffer,
    Array.getElem?_eq_getElem hpicture]
  simp [hpicture]

theorem render_behind {place : Nat} (h : 3 * s.pixels.size ≤ place) :
    (FrameBuffer.overlay buffer 0 s.picture)[place]? = buffer[place]? := by
  have hpicture : ¬ place < s.picture.size := by
    rw [size_picture]
    omega
  rw [FrameBuffer.getElem?_overlay_zero]
  simp [Array.getD, hpicture]

end Screen

end Chip8
