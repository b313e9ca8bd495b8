import Chip8.Screen

/-!
# The grid of a screen

A screen keeps its pixels in one array.  `Screen.grid` is the picture: which of the pixels at a row
and a column inside the screen are lit.  The lemmas say what writing pixels does to it.

* `Screen.WellFormed`: the array has one pixel for each place of the screen, and the screen is not
  empty.  Every operation keeps this, and on such a screen no write reaches outside the array.
* `Screen.flip_eq` and `Screen.grid_flipped`: a write toggles the one pixel that its coordinates wrap
  to.
* `Screen.plot_eq` and `Screen.spriteDots_eq`: a list of writes is one write after the other, and the
  writes of a sprite are those of its rows.
* `Screen.SameShape`: what every write keeps.
-/

namespace Chip8

namespace Screen

/-- The screen has pixels, one for each place. -/
structure WellFormed (s : Screen) : Prop where
  height_pos : 0 < s.height
  width_pos : 0 < s.width
  size_pixels : s.pixels.size = s.height * s.width

/-- Whether the pixel at row `y` and column `x` of the screen is lit.  Nothing is lit outside. -/
def grid (s : Screen) (y x : Nat) : Bool :=
  decide (y < s.height ∧ x < s.width) && s.pixels.getD (y * s.width + x) false

/-! ## Places in the array -/

/-- Rows do not overlap: a place of the array belongs to one row and one column. -/
theorem eq_of_place_eq {width y x y' x' : Nat} (hx : x < width) (hx' : x' < width)
    (h : y * width + x = y' * width + x') : y = y' ∧ x = x' := by
  have hdiv : (y * width + x) / width = (y' * width + x') / width := congrArg (· / width) h
  have hmod : (y * width + x) % width = (y' * width + x') % width := congrArg (· % width) h
  rw [Nat.mul_comm y, Nat.mul_comm y', Nat.mul_add_div (by omega), Nat.mul_add_div (by omega),
    Nat.div_eq_of_lt hx, Nat.div_eq_of_lt hx'] at hdiv
  rw [Nat.mul_comm y, Nat.mul_comm y', Nat.mul_add_mod, Nat.mul_add_mod, Nat.mod_eq_of_lt hx,
    Nat.mod_eq_of_lt hx'] at hmod
  exact ⟨by omega, hmod⟩

theorem WellFormed.index_lt {s : Screen} (hs : s.WellFormed) (y x : Nat) :
    s.index y x < s.pixels.size := by
  rw [hs.size_pixels]
  exact Screen.index_lt hs.height_pos hs.width_pos y x

/-- The pixel that coordinates wrap to. -/
theorem getElem_index {s : Screen} (hs : s.WellFormed) (y x : Nat)
    (hplace : s.index y x < s.pixels.size) :
    s.pixels[s.index y x] = s.grid (y % s.height) (x % s.width) := by
  have hy := Nat.mod_lt y hs.height_pos
  have hx := Nat.mod_lt x hs.width_pos
  have hlt := hs.index_lt y x
  simp only [index] at hlt ⊢
  simp [grid, hy, hx, hlt]

/-! ## Writing one pixel -/

/-- The screen with a bit combined with the pixel that the coordinates wrap to. -/
def flipped (s : Screen) (y x : Nat) (bit : Bool) : Screen :=
  { s with
    pixels := s.pixels.setIfInBounds (s.index y x) (s.grid (y % s.height) (x % s.width) ^^ bit)
    dirty := s.dirty || bit }

theorem flip_eq {s : Screen} (hs : s.WellFormed) (y x : Nat) (bit : Bool) :
    s.flip y x bit =
      .done (s.flipped y x bit) (s.grid (y % s.height) (x % s.width) && bit) := by
  have hlt := hs.index_lt y x
  simp only [flip, flipped, hlt, dif_pos, getElem_index hs, Array.setIfInBounds]

theorem WellFormed.flipped {s : Screen} (hs : s.WellFormed) (y x : Nat) (bit : Bool) :
    (s.flipped y x bit).WellFormed :=
  ⟨hs.height_pos, hs.width_pos, by simpa [Screen.flipped] using hs.size_pixels⟩

/-- A write toggles the pixel that its coordinates wrap to if its bit is set, and no other pixel. -/
theorem grid_flipped {s : Screen} (hs : s.WellFormed) (y x : Nat) (bit : Bool) (row column : Nat) :
    (s.flipped y x bit).grid row column =
      (s.grid row column ^^
        (bit && decide (row = y % s.height ∧ column = x % s.width))) := by
  have hlt := hs.index_lt y x
  have hx := Nat.mod_lt x hs.width_pos
  have hy := Nat.mod_lt y hs.height_pos
  by_cases hinside : row < s.height ∧ column < s.width
  · by_cases hplace : row = y % s.height ∧ column = x % s.width
    · obtain ⟨rfl, rfl⟩ := hplace
      simp only [index] at hlt
      simp [grid, flipped, index, hy, hx, hlt]
    · have hne : s.index y x ≠ row * s.width + column := fun h => by
        obtain ⟨hrow, hcolumn⟩ := eq_of_place_eq hx hinside.2 h
        exact hplace ⟨hrow.symm, hcolumn.symm⟩
      simp [grid, flipped, hne, hplace]
  · have hplace : ¬ (row = y % s.height ∧ column = x % s.width) := by
      rintro ⟨rfl, rfl⟩
      exact hinside ⟨hy, hx⟩
    simp [grid, flipped, hinside, hplace]

/-! ## Writing several pixels -/

/-- The screen with dots written one after the other. -/
def plotted (s : Screen) (dots : List Dot) : Screen :=
  dots.foldl (fun s dot => s.flipped dot.y dot.x dot.bit) s

/-- Whether one of the dots, written one after the other, turns a lit pixel off. -/
def collides (s : Screen) : List Dot → Bool
  | [] => false
  | dot :: dots =>
    (s.grid (dot.y % s.height) (dot.x % s.width) && dot.bit) ||
      (s.flipped dot.y dot.x dot.bit).collides dots

theorem WellFormed.plotted {s : Screen} (hs : s.WellFormed) (dots : List Dot) :
    (s.plotted dots).WellFormed := by
  induction dots generalizing s with
  | nil => exact hs
  | cons dot dots ih => exact ih (hs.flipped dot.y dot.x dot.bit)

/-- Writing dots on a screen that has pixels succeeds. -/
theorem plot_eq {s : Screen} (hs : s.WellFormed) (collided : Bool) (dots : List Dot) :
    s.plot collided dots = .done (s.plotted dots) (collided || s.collides dots) := by
  induction dots generalizing s collided with
  | nil => simp [plot, plotted, collides]
  | cons dot dots ih =>
    rw [plot, flip_eq hs]
    simp only [Outcome.done]
    rw [ih (hs.flipped dot.y dot.x dot.bit), collides, Bool.or_assoc]
    rfl

theorem plotted_append (s : Screen) (dots more : List Dot) :
    s.plotted (dots ++ more) = (s.plotted dots).plotted more :=
  List.foldl_append

theorem collides_append (s : Screen) (dots more : List Dot) :
    s.collides (dots ++ more) = (s.collides dots || (s.plotted dots).collides more) := by
  induction dots generalizing s with
  | nil => rfl
  | cons dot dots ih =>
    rw [List.cons_append, collides, collides, ih, Bool.or_assoc]
    rfl

/-! ## Sprites -/

/-- The dots of a sprite row at row `y` whose leftmost pixel is at column `x`. -/
def rowDots (y x : Nat) (row : UInt8) : List Dot :=
  (List.range 8).map fun column => ⟨y, x + column, row.toNat.testBit (7 - column)⟩

/-- A value with each element's place, of a list that is itself made from places. -/
theorem zipIdx_map_range {α : Type} (f : Nat → α) (n : Nat) :
    ((List.range n).map f).zipIdx = (List.range n).map fun place => (f place, place) := by
  apply List.ext_getElem <;> simp

theorem spriteDots_eq (y x : Nat) (f : Nat → UInt8) (n : Nat) :
    spriteDots y x ((List.range n).map f) =
      (List.range n).flatMap fun row => rowDots (y + row) x (f row) := by
  simp only [spriteDots, spriteBits, zipIdx_map_range, List.flatMap_map, List.map_map]
  rfl

/-! ## What every write keeps -/

/-- The screens have the same dimensions and as many pixels. -/
structure SameShape (s s' : Screen) : Prop where
  height : s'.height = s.height
  width : s'.width = s.width
  size_pixels : s'.pixels.size = s.pixels.size

theorem SameShape.refl (s : Screen) : SameShape s s := ⟨rfl, rfl, rfl⟩

theorem SameShape.trans {s s' s'' : Screen} (h : SameShape s s') (h' : SameShape s' s'') :
    SameShape s s'' :=
  ⟨h'.height.trans h.height, h'.width.trans h.width, h'.size_pixels.trans h.size_pixels⟩

theorem SameShape.symm {s s' : Screen} (h : SameShape s s') : SameShape s' s :=
  ⟨h.height.symm, h.width.symm, h.size_pixels.symm⟩

theorem SameShape.wellFormed {s s' : Screen} (h : SameShape s s') (hs : s.WellFormed) :
    s'.WellFormed :=
  ⟨h.height ▸ hs.height_pos, h.width ▸ hs.width_pos, by
    rw [h.size_pixels, h.height, h.width, hs.size_pixels]⟩

theorem sameShape_clear (s : Screen) : SameShape s s.clear := ⟨rfl, rfl, by simp [clear]⟩

theorem sameShape_flip (s : Screen) (y x : Nat) (bit : Bool) :
    SameShape s (s.flip y x bit).state := by
  unfold flip
  dsimp only
  split
  · exact ⟨rfl, rfl, by simp [Outcome.done]⟩
  · exact .refl s

theorem sameShape_setPixel (s : Screen) (y x : Nat) (value : UInt8) :
    SameShape s (s.setPixel y x value).state := by
  unfold setPixel
  split
  · exact s.sameShape_flip y x false
  · split
    · exact s.sameShape_flip y x true
    · exact .refl s

theorem sameShape_plot (s : Screen) (collided : Bool) (dots : List Dot) :
    SameShape s (s.plot collided dots).state := by
  induction dots generalizing s collided with
  | nil => exact .refl s
  | cons dot dots ih =>
    have hflip := s.sameShape_flip dot.y dot.x dot.bit
    rw [plot]
    split
    · rename_i hresult
      rw [hresult] at hflip
      exact hflip.trans (ih _ _)
    · rename_i hresult
      rw [hresult] at hflip
      exact hflip

theorem sameShape_plotted (s : Screen) (dots : List Dot) : SameShape s (s.plotted dots) := by
  induction dots generalizing s with
  | nil => exact .refl s
  | cons dot dots ih =>
    have hdot : SameShape s (s.flipped dot.y dot.x dot.bit) := ⟨rfl, rfl, by simp [flipped]⟩
    exact hdot.trans (ih _)

theorem wellFormed_dark {height width : Nat} (hheight : 0 < height) (hwidth : 0 < width) :
    (dark height width).WellFormed :=
  ⟨hheight, hwidth, by simp [dark]⟩

theorem wellFormed_standard : standard.WellFormed :=
  wellFormed_dark (by decide) (by decide)

end Screen

end Chip8
