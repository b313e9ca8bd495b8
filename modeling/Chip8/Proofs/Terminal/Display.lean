import Chip8.Proofs.Screen.Text
import Chip8.Terminal

/-!
# What a terminal shows

A terminal puts the characters that are written to it at its cursor, which moves on to the right, and
takes its orders from escape sequences.  Drawing a screen takes one such sequence for each row.

* `Display`: a terminal, and `Display.interpret`: what it makes of a text.  It knows the sequence that
  moves the cursor and passes over others.
* `Display.interpret_place`: the sequence in front of a row moves the cursor to its start.
* `Display.Shows`: a terminal shows a screen.  A drawing makes it so (`Display.shows_drawing`), and only
  a change of the text can make a further one necessary (`Shows.drawing`, `Shows.of_text_eq`).
-/

namespace Chip8

/-- How far a terminal has read an escape sequence. -/
inductive Display.Mode where
  /-- No sequence has begun. -/
  | text
  /-- The escape character has been read. -/
  | escape
  /-- Numbers are being read: those before the last separator, the last of them first, and the digits
  since. -/
  | numbers (before : List Nat) (last : Nat)

/-- A terminal. -/
structure Display where
  /-- The character at a row and a column. -/
  cells : Nat → Nat → Char
  /-- The row of the cursor. -/
  row : Nat
  /-- The column of the cursor. -/
  column : Nat
  /-- How far an escape sequence has been read. -/
  mode : Display.Mode := .text

namespace Display

/-- Puts a character at the cursor and moves the cursor on. -/
def put (d : Display) (c : Char) : Display :=
  { d with
    cells := fun y x => if y = d.row ∧ x = d.column then c else d.cells y x
    column := d.column + 1 }

/-- Moves the cursor to a row and a column, which are counted from one. -/
def moveTo (d : Display) (row column : Nat) : Display :=
  { d with row := row - 1, column := column - 1, mode := .text }

/-- What a terminal makes of a character. -/
def receive (d : Display) (c : Char) : Display :=
  match d.mode with
  | .text => if c = '\x1b' then { d with mode := .escape } else d.put c
  | .escape => { d with mode := if c = '[' then .numbers [] 0 else .text }
  | .numbers before last =>
    if c.isDigit then { d with mode := .numbers before (10 * last + (c.toNat - '0'.toNat)) }
    else if c = ';' then { d with mode := .numbers (last :: before) 0 }
    else
      match c, before with
      | 'H', [] => d.moveTo last 1
      | 'H', [row] => d.moveTo row last
      | _, _ => { d with mode := .text }

/-- What a terminal makes of a text. -/
def interpret (d : Display) (text : String) : Display := text.toList.foldl receive d

theorem interpret_append (d : Display) (text text' : String) :
    d.interpret (text ++ text') = (d.interpret text).interpret text' := by
  rw [interpret, String.toList_append, List.foldl_append]
  rfl

/-! ## Escape sequences -/

/-- The digits of a number are read as this number. -/
theorem foldl_receive_digits (d : Display) {digits : List Char} (before : List Nat) (last : Nat)
    (hmode : d.mode = .numbers before last) (hdigits : ∀ c ∈ digits, c.isDigit = true) :
    digits.foldl receive d = { d with mode := .numbers before (Nat.ofDigitChars 10 digits last) } := by
  induction digits generalizing d last with
  | nil =>
    rw [List.foldl_nil, Nat.ofDigitChars_nil, ← hmode]
  | cons c digits ih =>
    obtain ⟨hfirst, hrest⟩ := List.forall_mem_cons.mp hdigits
    have hreceive : d.receive c =
        { d with mode := .numbers before (10 * last + (c.toNat - '0'.toNat)) } := by
      rw [receive, hmode]
      exact if_pos hfirst
    rw [List.foldl_cons, hreceive, ih _ _ rfl hrest, Nat.ofDigitChars_cons]

theorem interpret_toString (d : Display) (before : List Nat) (hmode : d.mode = .numbers before 0)
    (n : Nat) :
    d.interpret (toString n) = { d with mode := .numbers before n } := by
  have hdigits : ∀ c ∈ Nat.toDigits 10 n, c.isDigit = true := fun c hc =>
    Nat.isDigit_of_mem_toDigits (by decide) (by decide) hc
  rw [interpret, Nat.toString_eq_repr, Nat.toList_repr, foldl_receive_digits d before 0 hmode hdigits,
    Nat.ofDigitChars_toDigits (by decide) (by decide)]

/-- The sequence in front of a row moves the cursor to its start. -/
theorem interpret_place {d : Display} (hmode : d.mode = .text) (y : Nat) :
    d.interpret ("\x1b[" ++ toString (y + 1) ++ ";1H") = { d with row := y, column := 0 } := by
  obtain ⟨cells, row, column, mode⟩ := d
  cases hmode
  let reading : Display := { cells, row, column, mode := .numbers [] 0 }
  have hbegin : interpret { cells, row, column } "\x1b[" = reading := rfl
  rw [interpret_append, interpret_append, hbegin, reading.interpret_toString [] rfl]
  rfl

/-! ## Rows -/

/-- Characters that begin no sequence are put one after the other. -/
theorem foldl_receive_text {d : Display} (hmode : d.mode = .text) {chars : List Char}
    (hchars : ∀ c ∈ chars, c ≠ '\x1b') :
    (chars.foldl receive d).mode = .text ∧
      ∀ y x, (chars.foldl receive d).cells y x =
        if y = d.row ∧ d.column ≤ x then (chars[x - d.column]?).getD (d.cells y x)
        else d.cells y x := by
  induction chars generalizing d with
  | nil => exact ⟨hmode, by simp⟩
  | cons c chars ih =>
    obtain ⟨hfirst, hrest⟩ := List.forall_mem_cons.mp hchars
    have hreceive : d.receive c = d.put c := by
      rw [receive, hmode]
      exact if_neg hfirst
    obtain ⟨hmode', hcells⟩ := ih (d := d.put c) hmode hrest
    rw [List.foldl_cons, hreceive]
    refine ⟨hmode', fun y x => ?_⟩
    have hputCells : (d.put c).cells y x =
        if y = d.row ∧ x = d.column then c else d.cells y x := rfl
    have hputRow : (d.put c).row = d.row := rfl
    have hputColumn : (d.put c).column = d.column + 1 := rfl
    rw [hcells y x, hputCells, hputRow, hputColumn]
    by_cases hrow : y = d.row
    · rcases Nat.lt_trichotomy x d.column with hlt | rfl | hgt
      · simp [hrow, Nat.not_le.mpr hlt, Nat.ne_of_lt hlt, show ¬ d.column + 1 ≤ x by omega]
      · rw [if_neg (by omega), if_pos ⟨hrow, rfl⟩, if_pos ⟨hrow, Nat.le_refl _⟩, Nat.sub_self]
        rfl
      · have hplace : x - d.column = x - (d.column + 1) + 1 := by omega
        simp [hrow, Nat.le_of_lt hgt, Nat.ne_of_gt hgt, Nat.succ_le_of_lt hgt, hplace]
    · simp [hrow]

/-- A placed row leaves its pixels in the first columns of its row. -/
theorem interpret_placedRow {d : Display} (hmode : d.mode = .text) (row : List Bool) (y : Nat) :
    (d.interpret (Terminal.placedRow (Screen.rowText row) y)).mode = .text ∧
      ∀ y' x, (d.interpret (Terminal.placedRow (Screen.rowText row) y)).cells y' x =
        if y' = y then (row[x]?.map Screen.glyph).getD (d.cells y' x) else d.cells y' x := by
  have hchars : ∀ c ∈ row.map Screen.glyph, c ≠ '\x1b' := by
    intro c hc
    obtain ⟨lit, -, rfl⟩ := List.mem_map.mp hc
    cases lit <;> decide
  have hrow := foldl_receive_text (d := { d with row := y, column := 0 }) hmode hchars
  rw [Terminal.placedRow, interpret_append, interpret_place hmode, interpret, Screen.toList_rowText]
  refine ⟨hrow.1, fun y' x => ?_⟩
  rw [hrow.2 y' x, List.getElem?_map]
  simp

/-- Placed rows, one after the other, leave their pixels in the rows from the first one on. -/
theorem interpret_rows {d : Display} (hmode : d.mode = .text) (rows : List (List Bool))
    (first : Nat) :
    let d' := d.interpret (String.join ((rows.zipIdx first).map fun (row, y) =>
      Terminal.placedRow (Screen.rowText row) y))
    d'.mode = .text ∧ ∀ y x, d'.cells y x =
      if first ≤ y then ((rows[y - first]?.bind (·[x]?)).map Screen.glyph).getD (d.cells y x)
      else d.cells y x := by
  induction rows generalizing d first with
  | nil => exact ⟨hmode, by simp [interpret]⟩
  | cons row rows ih =>
    obtain ⟨hmode', hcells⟩ := interpret_placedRow hmode row first
    obtain ⟨hmode'', hcells'⟩ := ih hmode' (first + 1)
    rw [List.zipIdx_cons, List.map_cons, String.join_cons, interpret_append]
    refine ⟨hmode'', fun y x => ?_⟩
    rw [hcells' y x, hcells y x]
    rcases Nat.lt_trichotomy y first with hlt | rfl | hgt
    · simp [Nat.not_le.mpr hlt, Nat.ne_of_lt hlt, show ¬ first + 1 ≤ y by omega]
    · rw [if_neg (by omega), if_pos rfl, if_pos (Nat.le_refl _), Nat.sub_self]
      rfl
    · have hplace : y - first = y - (first + 1) + 1 := by omega
      simp [Nat.le_of_lt hgt, Nat.ne_of_gt hgt, Nat.succ_le_of_lt hgt, hplace]

/-! ## Screens -/

/-- The terminal shows a screen in its upper left corner, and elsewhere what it showed at the start. -/
structure Shows (d : Display) (s : Screen) (start : Display) : Prop where
  mode : d.mode = .text
  cells (y x : Nat) : d.cells y x =
    if y < s.height ∧ x < s.width then Screen.glyph (s.grid y x) else start.cells y x

/-- A drawing leaves the pixels of the screen in its places and all other places as they were. -/
theorem shows_drawing {d : Display} (hmode : d.mode = .text) (s : Screen) :
    (d.interpret (Terminal.drawing s)).Shows s d := by
  obtain ⟨hmode', hcells⟩ := interpret_rows hmode s.rows 0
  refine ⟨hmode', fun y x => (hcells y x).trans ?_⟩
  rw [if_pos (Nat.zero_le y), Nat.sub_zero, Screen.rows_eq, List.getElem?_map]
  by_cases hy : y < s.height
  · rw [List.getElem?_range hy, Option.map_some, Option.bind_some, Screen.row, List.getElem?_map]
    by_cases hx : x < s.width
    · simp [hx, hy]
    · simp [hx]
  · simp [hy]

namespace Shows

variable {d start : Display} {s s' : Screen}

/-- A screen takes the place of another one of its shape. -/
theorem drawing (h : d.Shows s start) (hshape : s.SameShape s') :
    (d.interpret (Terminal.drawing s')).Shows s' start := by
  have hdrawn := shows_drawing h.mode s'
  refine ⟨hdrawn.mode, fun y x => (hdrawn.cells y x).trans ?_⟩
  by_cases hplace : y < s'.height ∧ x < s'.width
  · rw [if_pos hplace, if_pos hplace]
  · rw [if_neg hplace, if_neg hplace, h.cells y x, ← hshape.height, ← hshape.width, if_neg hplace]

/-- What shows a screen shows every other one with the same text. -/
theorem of_text_eq (h : d.Shows s start) (hshape : s.SameShape s') (htext : s.text = s'.text) :
    d.Shows s' start := by
  refine ⟨h.mode, fun y x => (h.cells y x).trans ?_⟩
  rw [hshape.height, hshape.width]
  by_cases hplace : y < s.height ∧ x < s.width
  · rw [if_pos hplace, if_pos hplace,
      (Screen.text_eq_iff hshape).mp htext y hplace.1 x hplace.2]
  · rw [if_neg hplace, if_neg hplace]

end Shows

end Display

end Chip8
