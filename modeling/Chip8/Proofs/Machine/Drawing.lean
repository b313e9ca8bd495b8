import Mathlib.Data.Finset.Prod
import Chip8.Proofs.Machine.Blocks
import Chip8.Proofs.Machine.Effects
import Chip8.Proofs.Screen.Parity

/-!
# Sprites

A sprite is drawn dot by dot, and it wraps around the edges of the screen.  On a screen that is smaller
than the sprite several of its dots fall on one pixel.

* `Machine.covering`: the places of the sprite whose bit is set and falls on a pixel.  Their number is
  how often the dots of the sprite toggle it (`Machine.hits_rowsDots`), and it is at most one if the
  screen is no smaller than the sprite (`Machine.card_covering_le_one`).
* `Machine.drawn`: the machine after a sprite has been drawn, with what it shows by parity
  (`grid_drawn`) and when it sets the flag (`flag_drawn`).
* `Machine.pixels_drawn_drawn`: the same sprite drawn again restores the picture.
-/

namespace Chip8

namespace Machine

/-! ## The dots of a sprite -/

/-- A bit of the sprite at `I`, by its row and its column in the sprite.  The most significant bit of a
byte stands on the left. -/
def spriteBit (m : Machine) (down right : Nat) : Bool :=
  (m.memory.getD ((m.i.toNat + down) % m.memory.size) 0).toNat.testBit (7 - right)

/-- Whether the bit at a place of the sprite is set and falls on the pixel at row `row` and column
`column`, when the upper left corner of the sprite is at row `Vy` and column `Vx`.  A place is a row and
a column of the sprite. -/
def covers (m : Machine) (x y : UInt8) (row column : Nat) (place : Nat × Nat) : Bool :=
  m.spriteBit place.1 place.2 &&
    decide (row = ((m.reg y).toNat + place.1) % m.screen.height ∧
      column = ((m.reg x).toNat + place.2) % m.screen.width)

/-- The places of a sprite of `n` bytes at `I` whose bit is set and falls on a pixel. -/
def covering (m : Machine) (x y n : UInt8) (row column : Nat) : Finset (Nat × Nat) :=
  (Finset.range n.toNat ×ˢ Finset.range 8).filter fun place => m.covers x y row column place

/-- The dots of a sprite, one for each of its places. -/
theorem rowsDots_eq_map (m : Machine) (y x n : Nat) :
    m.rowsDots y x (List.range n) =
      (List.range n ×ˢ List.range 8).map fun (down, right) =>
        ⟨y + down, x + right, m.spriteBit down right⟩ := by
  simp only [SProd.sprod, List.product, List.map_flatMap, List.map_map]
  rfl

/-- The dots that toggle a pixel are those that stand at its places in the sprite. -/
theorem hits_rowsDots (m : Machine) (x y n : UInt8) (row column : Nat) :
    m.screen.hits (m.rowsDots (m.reg y).toNat (m.reg x).toNat (List.range n.toNat)) row column =
      (m.covering x y n row column).card := by
  calc
    _ = (List.range n.toNat ×ˢ List.range 8).countP (m.covers x y row column) := by
      rw [rowsDots_eq_map, Screen.hits, List.countP_map]
      rfl
    _ = (((List.range n.toNat : Multiset Nat) ×ˢ (List.range 8 : Multiset Nat)).filter
          fun place => m.covers x y row column place).card := by
      rw [Multiset.coe_product, Multiset.filter_coe, Multiset.coe_card,
        List.countP_eq_length_filter]
      simp
    _ = (m.covering x y n row column).card := rfl

theorem any_rowsDots (m : Machine) (y x n : Nat) :
    (m.rowsDots y x (List.range n)).any (·.bit) = true ↔
      ∃ down < n, ∃ right < 8, m.spriteBit down right = true := by
  simp only [rowsDots_eq_map, List.any_map, List.any_eq_true, Function.comp_apply, Prod.exists,
    List.mem_product, List.mem_range, and_assoc, exists_and_left]

/-- On a screen that is no smaller than the sprite every pixel has at most one place in it. -/
theorem card_covering_le_one {m : Machine} {x y n : UInt8} (hheight : n.toNat ≤ m.screen.height)
    (hwidth : 8 ≤ m.screen.width) (row column : Nat) : (m.covering x y n row column).card ≤ 1 := by
  rw [Finset.card_le_one]
  rintro ⟨down, right⟩ hplace ⟨down', right'⟩ hplace'
  simp only [covering, covers, Finset.mem_filter, Finset.mem_product, Finset.mem_range,
    Bool.and_eq_true, decide_eq_true_eq] at hplace hplace'
  obtain ⟨⟨hdown, hright⟩, -, hrow, hcolumn⟩ := hplace
  obtain ⟨⟨hdown', hright'⟩, -, hrow', hcolumn'⟩ := hplace'
  rw [Prod.mk.injEq]
  exact ⟨offset_eq_of_place_eq (hdown.trans_le hheight) (hdown'.trans_le hheight) (hrow.symm.trans hrow'),
    offset_eq_of_place_eq (hright.trans_le hwidth) (hright'.trans_le hwidth) (hcolumn.symm.trans hcolumn')⟩

/-! ## The machine after a draw -/

/-- The machine with the sprite of `n` bytes at `I` drawn at column `Vx` and row `Vy`. -/
def drawn (m : Machine) (x y n : UInt8) : Machine :=
  let dots := m.rowsDots (m.reg y).toNat (m.reg x).toNat (List.range n.toNat)
  ({ m with screen := m.screen.plotted dots }).setFlag (m.screen.collides dots)

theorem reg_setFlag_flag (m : Machine) (flag : Bool) :
    (m.setFlag flag).reg flagRegister = if flag then 1 else 0 :=
  (Registers.read_write ..).trans (if_pos rfl)

/-- A register other than the flag is left alone. -/
theorem reg_setFlag_of_ne {m : Machine} {r : UInt8} (hr : r.toNat % 16 ≠ 15) (flag : Bool) :
    (m.setFlag flag).reg r = m.reg r := by
  rw [reg, setFlag, setReg, Registers.read_write, if_neg (fun h => hr h.symm), reg]

/-- A draw changes nothing but the screen and the flag. -/
theorem drawn_eq (m : Machine) (x y n : UInt8) :
    m.drawn x y n = { m with
      screen := (m.drawn x y n).screen
      v := m.v.write flagRegister ((m.drawn x y n).reg flagRegister) } := by
  rw [drawn, reg_setFlag_flag]
  rfl

theorem sameShape_drawn (m : Machine) (x y n : UInt8) :
    m.screen.SameShape (m.drawn x y n).screen :=
  m.screen.sameShape_plotted _

theorem grid_drawn {m : Machine} (hs : m.screen.WellFormed) (x y n : UInt8) (row column : Nat) :
    (m.drawn x y n).screen.grid row column =
      (m.screen.grid row column ^^ decide (Odd (m.covering x y n row column).card)) := by
  rw [← hits_rowsDots]
  exact Screen.grid_plotted hs _ row column

theorem dirty_drawn (m : Machine) (x y n : UInt8) :
    (m.drawn x y n).screen.dirty = true ↔
      m.screen.dirty = true ∨ ∃ down < n.toNat, ∃ right < 8, m.spriteBit down right = true := by
  rw [← any_rowsDots m (m.reg y).toNat (m.reg x).toNat, ← Bool.or_eq_true]
  exact Bool.eq_iff_iff.mp (m.screen.dirty_plotted _)

/-- The flag tells whether some pixel is turned off while the sprite is drawn. -/
theorem flag_drawn {m : Machine} (hs : m.screen.WellFormed) (x y n : UInt8) :
    (m.drawn x y n).reg flagRegister =
      if ∃ row < m.screen.height, ∃ column < m.screen.width,
          2 ≤ (m.screen.grid row column).toNat + (m.covering x y n row column).card
      then 1 else 0 := by
  rw [drawn, reg_setFlag_flag]
  simp only [Screen.collides_iff hs, Screen.load, hits_rowsDots]

/-- On a screen that is no smaller than the sprite the flag tells whether the sprite overlaps a lit
pixel. -/
theorem flag_drawn_of_fits {m : Machine} (hs : m.screen.WellFormed) {x y n : UInt8}
    (hheight : n.toNat ≤ m.screen.height) (hwidth : 8 ≤ m.screen.width) :
    (m.drawn x y n).reg flagRegister = 1 ↔
      ∃ row column, m.screen.grid row column = true ∧ (m.covering x y n row column).Nonempty := by
  have htwo (row column : Nat) :
      2 ≤ (m.screen.grid row column).toNat + (m.covering x y n row column).card ↔
        m.screen.grid row column = true ∧ (m.covering x y n row column).Nonempty := by
    have hle := card_covering_le_one (x := x) (y := y) hheight hwidth row column
    rw [← Finset.card_pos]
    generalize (m.covering x y n row column).card = count at hle ⊢
    cases m.screen.grid row column <;> simp <;> omega
  have hone (p : Prop) [Decidable p] : (if p then 1 else 0 : UInt8) = 1 ↔ p := by
    split <;> simp_all
  simp only [flag_drawn hs, hone, htwo]
  constructor
  · rintro ⟨row, -, column, -, hoverlap⟩
    exact ⟨row, column, hoverlap⟩
  · rintro ⟨row, column, hlit, hcovered⟩
    obtain ⟨hrow, hcolumn⟩ := Screen.lt_of_grid hlit
    exact ⟨row, hrow, column, hcolumn, hlit, hcovered⟩

section Twice

variable {m : Machine} (hs : m.screen.WellFormed) {x y : UInt8} (hx : x.toNat % 16 ≠ 15)
  (hy : y.toNat % 16 ≠ 15) (n : UInt8)

include hx hy

/-- A draw leaves its own sprite where it is, unless the flag is one of its coordinates. -/
theorem covering_drawn (row column : Nat) :
    (m.drawn x y n).covering x y n row column = m.covering x y n row column := by
  have hshape := m.sameShape_drawn x y n
  have hbit (down right : Nat) : (m.drawn x y n).spriteBit down right = m.spriteBit down right := rfl
  have hregx : (m.drawn x y n).reg x = m.reg x := reg_setFlag_of_ne hx _
  have hregy : (m.drawn x y n).reg y = m.reg y := reg_setFlag_of_ne hy _
  have hcovers : (m.drawn x y n).covers x y row column = m.covers x y row column := by
    funext place
    rw [covers, hbit, hregx, hregy, hshape.height, hshape.width, covers]
  simp only [covering, hcovers]

include hs

/-- A sprite that is drawn twice leaves no trace, since every pixel is toggled as often the second time as
the first. -/
theorem pixels_drawn_drawn : ((m.drawn x y n).drawn x y n).screen.pixels = m.screen.pixels := by
  have hshape := m.sameShape_drawn x y n
  refine (hshape.trans (sameShape_drawn _ x y n)).pixels_eq hs fun row column => ?_
  rw [grid_drawn (hshape.wellFormed hs), grid_drawn hs, covering_drawn hx hy, Bool.xor_assoc,
    Bool.xor_self, Bool.xor_false]

end Twice

/-- What a draw does.  It toggles a pixel once for each bit of the sprite that falls on it, sets the flag
if a pixel that was lit or has been turned on is turned off, and changes nothing else.  Drawn again, the
sprite disappears. -/
theorem draw_exact {m : Machine} (hs : m.screen.WellFormed) (x y n : UInt8) :
    ∃ m', (Instruction.draw x y n).execute m = .done m' () ∧
      m' = { m with
        screen := m'.screen
        v := m.v.write flagRegister (m'.reg flagRegister) } ∧
      m.screen.SameShape m'.screen ∧
      (∀ row column, m'.screen.grid row column =
        (m.screen.grid row column ^^ decide (Odd (m.covering x y n row column).card))) ∧
      m'.reg flagRegister =
        (if ∃ row < m.screen.height, ∃ column < m.screen.width,
            2 ≤ (m.screen.grid row column).toNat + (m.covering x y n row column).card
        then 1 else 0) ∧
      (n.toNat ≤ m.screen.height → 8 ≤ m.screen.width →
        (m'.reg flagRegister = 1 ↔
          ∃ row column, m.screen.grid row column = true ∧ (m.covering x y n row column).Nonempty)) ∧
      (m'.screen.dirty = true ↔
        m.screen.dirty = true ∨ ∃ down < n.toNat, ∃ right < 8, m.spriteBit down right = true) ∧
      (x.toNat % 16 ≠ 15 → y.toNat % 16 ≠ 15 →
        ∃ m'', (Instruction.draw x y n).execute m' = .done m'' () ∧
          m''.screen.pixels = m.screen.pixels) := by
  have hshape := m.sameShape_drawn x y n
  refine ⟨m.drawn x y n, draw_eq hs x y n, m.drawn_eq x y n, hshape, grid_drawn hs x y n,
    flag_drawn hs x y n, flag_drawn_of_fits hs, m.dirty_drawn x y n, fun hx hy => ?_⟩
  exact ⟨_, draw_eq (hshape.wellFormed hs) x y n, pixels_drawn_drawn hs hx hy n⟩

/-- The uppermost row of the glyph of zero has four lit pixels in line.  On a screen with a single pixel
they all fall on it, and it stays dark. -/
theorem draw_exact_glyph :
    ∃ m, Machine.new { memorySize := 96, loadAddress := 80 } (.replicate 8 0) = .ok m ∧
      (Screen.dark 1 1).WellFormed ∧
      ∃ m', (Instruction.draw 0 0 1).execute { m with screen := .dark 1 1 } = .done m' () ∧
        m'.screen.grid 0 0 = false ∧ m'.reg flagRegister = 1 ∧ m'.screen.dirty = true := by
  have hs : (Screen.dark 1 1).WellFormed := Screen.wellFormed_dark (by decide) (by decide)
  obtain ⟨m, hnew⟩ :
      ∃ m, Machine.new { memorySize := 96, loadAddress := 80 } (.replicate 8 0) = .ok m := ⟨_, rfl⟩
  have hfresh := fresh_of_new hnew
  have hreset {α : Type} (part : Machine → α) : part m = part m.reset :=
    congrArg part hfresh.reset_eq.symm
  have hmemory : m.memory = image 96 #[] 80 := by
    rw [hreset memory, reset, hfresh.size_memory, hfresh.program_eq, hfresh.origin_eq]
    simp
  have hi : m.i = 0 := hreset i
  have hv : m.v = .zero := hreset v
  have hcovering : ({ m with screen := .dark 1 1 }.covering 0 0 1 0 0).card = 4 := by
    simp only [covering, covers, spriteBit, reg, hmemory, hi, hv]
    decide
  obtain ⟨m', hdraw, -, -, hgrid, hflag, -, hdirty, -⟩ :=
    draw_exact (m := { m with screen := .dark 1 1 }) hs 0 0 1
  refine ⟨m, hnew, hs, m', hdraw, ?_, ?_, hdirty.mpr (.inl rfl)⟩
  · rw [hgrid, hcovering]
    show ((Screen.dark 1 1).grid 0 0 ^^ decide (Odd 4)) = false
    decide
  · rw [hflag, if_pos]
    exact ⟨0, Nat.one_pos, 0, Nat.one_pos, by omega⟩

end Machine

end Chip8
