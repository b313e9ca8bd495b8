import Mathlib.Algebra.Ring.Parity
import Chip8.Proofs.Screen.Grid

/-!
# Pixels by parity

Pixels are written by exclusive or, so what many writes do to a pixel depends on how often it is
written and not on the order.  The same is true of the number of collisions, though not of the answer
of any single write.  What carries this is the load of a pixel: one if it is lit, and one for each write
that toggles it.  A write that turns the pixel on keeps the load, and one that turns it off takes two
from it (`Screen.load_cons`).

* `Screen.grid_plotted`: a pixel is lit in the end if its load is odd.
* `Screen.collides_iff`: there is a collision if the load of some pixel is two or more.
* `Screen.lit_plotted`: the lit pixels are accounted for by the writes and the collisions.
* `Screen.writeAll`: pixels written one after the other by callers that may give any number as the
  value.  A value that is no bit writes nothing (`Screen.writeAll_eq`).
-/

namespace Chip8

namespace Screen

/-- Screens of one shape that show the same picture have the same pixels. -/
theorem SameShape.pixels_eq {s s' : Screen} (h : SameShape s s') (hs : s.WellFormed)
    (hgrid : ∀ row column, s'.grid row column = s.grid row column) : s'.pixels = s.pixels := by
  apply Array.ext h.size_pixels
  intro place hplace' hplace
  have hlt : place < s.height * s.width := hs.size_pixels ▸ hplace
  have hrow : place / s.width < s.height := Nat.div_lt_of_lt_mul (Nat.mul_comm .. ▸ hlt)
  have hcolumn : place % s.width < s.width := Nat.mod_lt place hs.width_pos
  have hpixel := hgrid (place / s.width) (place % s.width)
  have hindex : place / s.width * s.width + place % s.width = place := Nat.div_add_mod' place s.width
  simpa [grid, h.height, h.width, hrow, hcolumn, hindex, hplace, hplace'] using hpixel

/-- The pixels that are lit are on the screen. -/
theorem lt_of_grid {s : Screen} {row column : Nat} (h : s.grid row column = true) :
    row < s.height ∧ column < s.width := by
  simp only [grid, Bool.and_eq_true, decide_eq_true_eq] at h
  exact h.1

/-! ## How often a pixel is written -/

/-- Whether a dot toggles the pixel at row `row` and column `column`. -/
def toggles (s : Screen) (row column : Nat) (dot : Dot) : Bool :=
  dot.bit && decide (row = dot.y % s.height ∧ column = dot.x % s.width)

/-- The number of dots that toggle a pixel. -/
def hits (s : Screen) (dots : List Dot) (row column : Nat) : Nat := dots.countP (s.toggles row column)

/-- The number of dots that toggle a pixel, and one more if it is lit. -/
def load (s : Screen) (dots : List Dot) (row column : Nat) : Nat :=
  (s.grid row column).toNat + s.hits dots row column

/-- A dot that turns a pixel off takes two from its load.  No other dot changes the load. -/
theorem load_cons {s : Screen} (hs : s.WellFormed) (dot : Dot) (dots : List Dot)
    (row column : Nat) :
    s.load (dot :: dots) row column =
      (s.flipped dot.y dot.x dot.bit).load dots row column +
        2 * (s.grid row column && s.toggles row column dot).toNat := by
  have hgrid : (s.flipped dot.y dot.x dot.bit).grid row column =
      (s.grid row column ^^ s.toggles row column dot) := grid_flipped hs ..
  have hhits : (s.flipped dot.y dot.x dot.bit).hits dots row column = s.hits dots row column := rfl
  rw [load, load, hgrid, hhits, hits, List.countP_cons, ← hits]
  cases s.grid row column <;> cases s.toggles row column dot <;> simp <;> omega

/-- In the end a pixel is lit if its load is odd. -/
theorem odd_load {s : Screen} (hs : s.WellFormed) (dots : List Dot) (row column : Nat) :
    Odd (s.load dots row column) ↔ (s.plotted dots).grid row column = true := by
  induction dots generalizing s with
  | nil => cases h : s.grid row column <;> simp [plotted, load, hits, h]
  | cons dot dots ih =>
    have heven := even_two_mul (s.grid row column && s.toggles row column dot).toNat
    rw [load_cons hs, Nat.odd_add, iff_true_right heven]
    exact ih (hs.flipped dot.y dot.x dot.bit)

/-- A pixel is toggled as often as dots hit it. -/
theorem grid_plotted {s : Screen} (hs : s.WellFormed) (dots : List Dot) (row column : Nat) :
    (s.plotted dots).grid row column =
      (s.grid row column ^^ decide (Odd (s.hits dots row column))) := by
  have hload := odd_load hs dots row column
  rw [Bool.eq_iff_iff, ← hload, load]
  cases s.grid row column <;> simp [Nat.odd_add_one, Nat.add_comm 1]

/-- There is a collision where a pixel is turned off, which takes a load of two. -/
theorem collides_iff {s : Screen} (hs : s.WellFormed) (dots : List Dot) :
    s.collides dots = true ↔
      ∃ row < s.height, ∃ column < s.width, 2 ≤ s.load dots row column := by
  induction dots generalizing s with
  | nil =>
    have hload (row column : Nat) : s.load [] row column ≤ 1 := Bool.toNat_le _
    simp only [collides, Bool.false_eq_true, false_iff]
    rintro ⟨row, -, column, -, htwo⟩
    have := hload row column
    omega
  | cons dot dots ih =>
    have hrow := Nat.mod_lt dot.y hs.height_pos
    have hcolumn := Nat.mod_lt dot.x hs.width_pos
    have hplace : s.toggles (dot.y % s.height) (dot.x % s.width) dot = dot.bit := by simp [toggles]
    have hstep := load_cons hs dot dots
    cases hhit : s.grid (dot.y % s.height) (dot.x % s.width) && dot.bit with
    | true =>
      have hload := hstep (dot.y % s.height) (dot.x % s.width)
      rw [hplace, hhit, Bool.toNat_true] at hload
      rw [collides, hhit, Bool.true_or]
      exact iff_of_true rfl ⟨_, hrow, _, hcolumn, by omega⟩
    | false =>
      -- No pixel is turned off now, so all loads are as they were.
      have hkeeps (row column : Nat) : s.load (dot :: dots) row column =
          (s.flipped dot.y dot.x dot.bit).load dots row column := by
        have hnone : (s.grid row column && s.toggles row column dot) = false := by
          rw [Bool.eq_false_iff, toggles]
          intro h
          simp only [Bool.and_eq_true, decide_eq_true_eq] at h
          obtain ⟨hlit, hbit, rfl, rfl⟩ := h
          rw [hlit, hbit] at hhit
          cases hhit
        rw [hstep, hnone, Bool.toNat_false, Nat.mul_zero, Nat.add_zero]
      rw [collides, hhit, Bool.false_or, ih (hs.flipped dot.y dot.x dot.bit)]
      simp only [hkeeps]
      rfl

theorem dirty_plotted (s : Screen) (dots : List Dot) :
    (s.plotted dots).dirty = (s.dirty || dots.any (·.bit)) := by
  induction dots generalizing s with
  | nil => simp [plotted]
  | cons dot dots ih =>
    rw [List.any_cons, ← Bool.or_assoc]
    exact ih (s.flipped dot.y dot.x dot.bit)

/-! ## Lit pixels and collisions -/

/-- A write that toggles a pixel turns one pixel on or off. -/
theorem lit_flipped {s : Screen} (hs : s.WellFormed) (y x : Nat) (bit : Bool) :
    (s.flipped y x bit).lit + 2 * (s.grid (y % s.height) (x % s.width) && bit).toNat =
      s.lit + bit.toNat := by
  have hlt := hs.index_lt y x
  have hold := getElem_index hs y x hlt
  have hset : (s.flipped y x bit).pixels =
      s.pixels.set (s.index y x) (s.grid (y % s.height) (x % s.width) ^^ bit) hlt := by
    simp only [flipped, Array.setIfInBounds, hlt, dif_pos]
  have hcount := Array.boole_getElem_le_count (a := true) hlt
  rw [lit, lit, hset, Array.count_set hlt, hold]
  rw [hold] at hcount
  generalize s.pixels.count true = lit, s.grid (y % s.height) (x % s.width) = old at hcount ⊢
  cases old <;> cases bit <;> simp at hcount ⊢ <;> omega

/-- The number of dots that turn a lit pixel off, when they are written one after the other. -/
def collisions (s : Screen) : List Dot → Nat
  | [] => 0
  | dot :: dots =>
    (s.grid (dot.y % s.height) (dot.x % s.width) && dot.bit).toNat +
      (s.flipped dot.y dot.x dot.bit).collisions dots

/-- Every dot that toggles a pixel turns one on, unless it collides, which turns one off. -/
theorem lit_plotted {s : Screen} (hs : s.WellFormed) (dots : List Dot) :
    (s.plotted dots).lit + 2 * s.collisions dots = s.lit + dots.countP (·.bit) := by
  induction dots generalizing s with
  | nil => rfl
  | cons dot dots ih =>
    have hdot := lit_flipped hs dot.y dot.x dot.bit
    have hrest := ih (hs.flipped dot.y dot.x dot.bit)
    have hplotted : s.plotted (dot :: dots) = (s.flipped dot.y dot.x dot.bit).plotted dots := rfl
    have hbit : (if dot.bit = true then 1 else 0) = dot.bit.toNat := by cases dot.bit <;> rfl
    rw [hplotted, collisions, List.countP_cons, hbit]
    omega

/-! ## The order of writes -/

section Perm

variable {s : Screen} (hs : s.WellFormed) {dots dots' : List Dot} (h : dots.Perm dots')

include hs h

theorem plotted_perm : s.plotted dots' = s.plotted dots := by
  have hshape := (s.sameShape_plotted dots).symm.trans (s.sameShape_plotted dots')
  have hhits (row column : Nat) : s.hits dots' row column = s.hits dots row column :=
    (h.countP_eq _).symm
  have hpixels := hshape.pixels_eq (hs.plotted dots) fun row column => by
    rw [grid_plotted hs, grid_plotted hs, hhits]
  have hdirty : (s.plotted dots').dirty = (s.plotted dots).dirty := by
    rw [dirty_plotted, dirty_plotted, h.any_eq]
  calc s.plotted dots'
    _ = ⟨(s.plotted dots').height, (s.plotted dots').width, (s.plotted dots').pixels,
          (s.plotted dots').dirty⟩ := rfl
    _ = s.plotted dots := by rw [hshape.height, hshape.width, hpixels, hdirty]

/-- The number of collisions does not depend on the order, since the lit pixels at both ends and the
number of dots do not. -/
theorem collisions_perm : s.collisions dots' = s.collisions dots := by
  have hlit := lit_plotted hs dots
  have hlit' := lit_plotted hs dots'
  have hcount := h.countP_eq (·.bit)
  rw [plotted_perm hs h] at hlit'
  omega

end Perm

/-! ## Writes with any value -/

/-- A value to be written at a row and a column.  The value need not be a bit. -/
structure Write where
  /-- The row. -/
  y : Nat
  /-- The column. -/
  x : Nat
  /-- The value. -/
  value : UInt8
deriving DecidableEq

/-- The dot that a write makes, if its value is a bit. -/
def Write.dot? (w : Write) : Option Dot :=
  if w.value = 0 then some ⟨w.y, w.x, false⟩
  else if w.value = 1 then some ⟨w.y, w.x, true⟩
  else none

/-- Makes writes one after the other, also after one that is refused.  The answers stand in the order
of the writes. -/
def writeAll (s : Screen) : List Write → Screen × List (Except Failure Bool)
  | [] => (s, [])
  | w :: writes =>
    let o := s.setPixel w.y w.x w.value
    let (s', answers) := o.state.writeAll writes
    (s', o.result :: answers)

/-- The values that are bits are those up to one. -/
theorem Write.dot?_eq_none_iff {w : Write} : w.dot? = none ↔ 1 < w.value := by
  have hlt : 1 < w.value ↔ 1 < w.value.toNat := UInt8.lt_iff_toNat_lt
  have hzero : w.value = 0 ↔ w.value.toNat = 0 := UInt8.toNat_inj.symm
  have hone : w.value = 1 ↔ w.value.toNat = 1 := UInt8.toNat_inj.symm
  have hnone : w.dot? = none ↔ ¬ w.value = 0 ∧ ¬ w.value = 1 := by
    unfold dot?
    split <;> simp_all
  rw [hnone, hlt, hzero, hone]
  omega

/-- A value that is no bit is refused. -/
theorem setPixel_eq_refuse {w : Write} (h : w.dot? = none) (s : Screen) :
    s.setPixel w.y w.x w.value = .refuse s (.invalidPixel w.value) := by
  unfold Write.dot? at h
  unfold setPixel
  split at h
  · cases h
  · split at h
    · cases h
    · rename_i hzero hone
      rw [if_neg hzero, if_neg hone]

/-- A value that is a bit is written as a dot. -/
theorem setPixel_eq_done {s : Screen} (hs : s.WellFormed) {w : Write} {dot : Dot}
    (h : w.dot? = some dot) :
    s.setPixel w.y w.x w.value =
      .done (s.flipped dot.y dot.x dot.bit)
        (s.grid (dot.y % s.height) (dot.x % s.width) && dot.bit) := by
  unfold Write.dot? at h
  unfold setPixel
  split at h
  · cases h
    rename_i hzero
    rw [if_pos hzero, flip_eq hs]
  · split at h
    · cases h
      rename_i hzero hone
      rw [if_neg hzero, if_pos hone, flip_eq hs]
    · cases h

/-- The writes that are not refused are written as dots, and the answers tell how many collide. -/
theorem writeAll_eq {s : Screen} (hs : s.WellFormed) (writes : List Write) :
    (s.writeAll writes).1 = s.plotted (writes.filterMap Write.dot?) ∧
      (s.writeAll writes).2.count (.ok true) = s.collisions (writes.filterMap Write.dot?) := by
  induction writes generalizing s with
  | nil => exact ⟨rfl, rfl⟩
  | cons w writes ih =>
    rw [writeAll]
    cases hdot : w.dot? with
    | none =>
      -- A write that is refused leaves no dot behind, and its answer is no collision.
      rw [List.filterMap_cons_none hdot, setPixel_eq_refuse hdot]
      obtain ⟨hscreen, hcount⟩ := ih hs
      refine ⟨hscreen, ?_⟩
      rw [← hcount]
      exact List.count_cons_of_ne (by simp [Outcome.refuse])
    | some dot =>
      rw [List.filterMap_cons_some hdot, setPixel_eq_done hs hdot]
      obtain ⟨hscreen, hcount⟩ := ih (hs.flipped dot.y dot.x dot.bit)
      refine ⟨hscreen, ?_⟩
      rw [collisions, ← hcount]
      cases s.grid (dot.y % s.height) (dot.x % s.width) && dot.bit <;>
        simp [Outcome.done, Nat.add_comm]

/-- Dots are counted as the writes that make them. -/
theorem countP_dots (p : Dot → Bool) (hp : ∀ y x, p ⟨y, x, false⟩ = false)
    (writes : List Write) :
    (writes.filterMap Write.dot?).countP p =
      writes.countP fun w => decide (w.value = 1) && p ⟨w.y, w.x, true⟩ := by
  rw [List.countP_filterMap]
  congr 1
  funext w
  unfold Write.dot?
  split
  · rename_i hzero
    simp [hzero, hp]
  · split <;> simp_all

/-- What writes do together.  A pixel is toggled by each write of a one whose coordinates wrap to it.  A
value above one is refused and changes nothing, and no other write fails.  The order of the writes
makes no difference to the screen and to the number of collisions.  Each write of a one lights a pixel,
unless it collides, which puts one out. -/
theorem writeAll_parity {s : Screen} (hs : s.WellFormed) (writes : List Write) :
    let after := (s.writeAll writes).1
    let collided (writes : List Write) := (s.writeAll writes).2.count (.ok true)
    (∀ row column, after.grid row column =
      (s.grid row column ^^ decide (Odd (writes.countP fun w =>
        w.value = 1 ∧ (w.y % s.height, w.x % s.width) = (row, column))))) ∧
      (∀ (t : Screen) (y x : Nat) (value : UInt8),
        (1 < value → t.setPixel y x value = .refuse t (.invalidPixel value)) ∧
          (t.WellFormed → value ≤ 1 → ∃ hit, (t.setPixel y x value).result = .ok hit)) ∧
      (∀ writes', writes.Perm writes' →
        (s.writeAll writes').1 = after ∧ collided writes' = collided writes) ∧
      after.lit + 2 * collided writes = s.lit + writes.countP fun w => w.value = 1 := by
  intro after collided
  have hafter := fun writes => (writeAll_eq hs writes).1
  have hcollided := fun writes => (writeAll_eq hs writes).2
  refine ⟨fun row column => ?_, fun t y x value => ⟨fun hvalue => ?_, fun ht hvalue => ?_⟩,
    fun writes' hperm => ⟨?_, ?_⟩, ?_⟩
  · have hhits : s.hits (writes.filterMap Write.dot?) row column = writes.countP fun w =>
        w.value = 1 ∧ (w.y % s.height, w.x % s.width) = (row, column) := by
      rw [hits, countP_dots _ (fun y x => rfl)]
      simp [toggles, eq_comm]
    rw [← hhits, ← grid_plotted hs, ← hafter]
  · exact setPixel_eq_refuse (w := ⟨y, x, value⟩) (Write.dot?_eq_none_iff.mpr hvalue) t
  · have hbit : (Write.mk y x value).dot? ≠ none := fun hnone =>
      UInt8.not_lt.mpr hvalue (Write.dot?_eq_none_iff.mp hnone)
    obtain ⟨dot, hdot⟩ := Option.ne_none_iff_exists'.mp hbit
    exact ⟨_, congrArg Outcome.result (setPixel_eq_done ht hdot)⟩
  · rw [hafter]
    exact (plotted_perm hs (hperm.filterMap _)).trans (hafter writes).symm
  · dsimp only [collided]
    rw [hcollided, hcollided]
    exact collisions_perm hs (hperm.filterMap _)
  · have hones := countP_dots (·.bit) (fun y x => rfl) writes
    have hlit := lit_plotted hs (writes.filterMap Write.dot?)
    simp only [Bool.and_true] at hones
    rw [hones, ← hcollided, ← hafter] at hlit
    exact hlit

/-- Two writes of the same pixel on a dark screen, of which one collides, and a write that is refused. -/
theorem writeAll_parity_dark :
    let s := dark 2 3
    let writes := [⟨0, 0, 1⟩, ⟨2, 3, 1⟩, ⟨1, 1, 7⟩, ⟨1, 2, 1⟩]
    s.WellFormed ∧ writes.Perm writes.reverse ∧
      (s.writeAll writes).2 =
        [.ok false, .ok true, .error (.fault (.invalidPixel 7)), .ok false] ∧
      (s.writeAll writes.reverse).1 = (s.writeAll writes).1 ∧
      (s.writeAll writes.reverse).2.count (.ok true) = 1 ∧
      (s.writeAll writes).1.grid 0 0 = false ∧
      (s.writeAll writes).1.lit + 2 * (s.writeAll writes).2.count (.ok true) = 3 := by
  intro s writes
  have hs : s.WellFormed := wellFormed_dark (by decide) (by decide)
  obtain ⟨hgrid, -, hperm, hlit⟩ := writeAll_parity hs writes
  have hreverse : writes.Perm writes.reverse := (List.reverse_perm writes).symm
  obtain ⟨hscreen, hcollided⟩ := hperm writes.reverse hreverse
  exact ⟨hs, hreverse, by decide, hscreen, hcollided.trans (by decide), (hgrid 0 0).trans (by decide),
    hlit.trans (by decide)⟩

end Screen

end Chip8
