import Chip8.Proofs.Screen.Grid

/-!
# The text of a screen

The text of a screen has a line for each row.  Its lines have one length, so a row of the text is found
by counting characters, and the text tells every pixel.

* `Screen.line`: a line of a text, by counting.  The lines of the text of a screen are its rows
  (`Screen.line_text`).
* `Screen.text_eq_iff`: screens of one shape have the same text exactly if they have the same pixels.
-/

namespace Chip8.Screen

/-- The character of a pixel. -/
def glyph (lit : Bool) : Char := if lit then '#' else '.'

theorem eq_of_glyph_eq {a b : Bool} (h : glyph a = glyph b) : a = b := by
  cases a <;> cases b <;> first | rfl | cases h

theorem toList_rowText (row : List Bool) : (rowText row).toList = row.map glyph :=
  String.toList_ofList

/-! ## Rows -/

/-- The pixels of a row from left to right. -/
def row (s : Screen) (y : Nat) : List Bool := (List.range s.width).map (s.grid y)

theorem length_row (s : Screen) (y : Nat) : (s.row y).length = s.width := by
  simp [row]

theorem rows_eq (s : Screen) : s.rows = (List.range s.height).map s.row := by
  refine List.map_congr_left fun y hy => List.map_congr_left fun x hx => ?_
  simp [grid, List.mem_range.mp hy, List.mem_range.mp hx]

/-- The pixel at a place inside a screen that has pixels. -/
theorem pixel?_eq {s : Screen} (hs : s.WellFormed) {y x : Nat} (hy : y < s.height)
    (hx : x < s.width) : s.pixel? y x = some (s.grid y x) := by
  have hlt := hs.index_lt y x
  rw [pixel?, Array.getElem?_eq_getElem hlt, getElem_index hs y x hlt, Nat.mod_eq_of_lt hy,
    Nat.mod_eq_of_lt hx]

/-! ## Lines -/

/-- The line with number `y` of a text whose lines have `width` characters and a line feed. -/
def line (width : Nat) (text : String) (y : Nat) : String :=
  String.ofList ((text.toList.drop ((width + 1) * y)).take width)

theorem toList_text (s : Screen) :
    s.text.toList = s.rows.flatMap fun row => row.map glyph ++ ['\n'] := by
  simp only [text, String.toList_join, List.flatMap_map, String.toList_append, toList_rowText]
  rfl

theorem text_ne_empty {s : Screen} (h : 0 < s.height) : s.text ≠ "" := by
  intro htext
  have hlist := s.toList_text
  rw [htext, rows_eq, show s.height = s.height - 1 + 1 by omega, List.range_succ_eq_map] at hlist
  simp at hlist

/-- In a list of pieces of one length, the pieces behind the first ones are found by counting. -/
theorem drop_flatMap_of_length {α β : Type} {f : α → List β} {length : Nat} {items : List α}
    (h : ∀ item ∈ items, (f item).length = length) (n : Nat) :
    (items.flatMap f).drop (length * n) = (items.drop n).flatMap f := by
  induction n generalizing items with
  | zero => rfl
  | succ n ih =>
    cases items with
    | nil => simp
    | cons item items =>
      obtain ⟨hfirst, hrest⟩ := List.forall_mem_cons.mp h
      rw [List.flatMap_cons, List.drop_succ_cons, ← ih hrest, Nat.mul_succ, Nat.add_comm,
        ← List.drop_drop, List.drop_left' hfirst]

/-- The lines of the text of a screen are its rows. -/
theorem line_text {s : Screen} {y : Nat} (hy : y < s.height) :
    line s.width s.text y = rowText (s.row y) := by
  have hlength : ∀ row ∈ s.rows, (row.map glyph ++ ['\n']).length = s.width + 1 := by
    intro row hrow
    rw [rows_eq] at hrow
    obtain ⟨y, -, rfl⟩ := List.mem_map.mp hrow
    simp [length_row]
  have hdrop : s.rows.drop y = s.row y :: s.rows.drop (y + 1) := by
    have hlt : y < s.rows.length := by simpa [rows_eq] using hy
    rw [List.drop_eq_getElem_cons hlt]
    simp [rows_eq]
  rw [line, toList_text, drop_flatMap_of_length hlength, hdrop, List.flatMap_cons, List.append_assoc,
    List.take_left' (by simp [length_row])]
  rfl

/-- Screens of one shape have the same text exactly if they have the same pixels. -/
theorem text_eq_iff {s s' : Screen} (hshape : SameShape s s') :
    s.text = s'.text ↔ ∀ y < s.height, ∀ x < s.width, s.grid y x = s'.grid y x := by
  constructor
  · intro htext y hy x hx
    have hline : (rowText (s.row y)).toList = (rowText (s'.row y)).toList := by
      rw [← line_text hy, ← line_text (hshape.height.symm ▸ hy), htext, hshape.width]
    rw [toList_rowText, toList_rowText, List.map_inj_right fun _ _ => eq_of_glyph_eq, row, row,
      hshape.width] at hline
    exact List.map_inj_left.mp hline x (List.mem_range.mpr hx)
  · intro hpixels
    have hrows : s.rows = s'.rows := by
      rw [rows_eq, rows_eq, hshape.height]
      refine List.map_congr_left fun y hy => ?_
      rw [row, row, hshape.width]
      exact List.map_congr_left fun x hx =>
        hpixels y (List.mem_range.mp hy) x (List.mem_range.mp hx)
    rw [text, text, hrows]

end Chip8.Screen
