import Chip8.Proofs.Machine.Writes

/-!
# Decimal digits

The three decimal digits of a register are stored at `I`, each as itself or as the address of its glyph.
A block transfer gets them back, and the number can be read off them.

* `Machine.digitAt`: a digit by its place, counted from the left.
* `Machine.decimalsStored` and `Machine.toNat_reg_loaded_decimalsStored`: the machine after the digits
  have been stored, and what is loaded from it.
* `Machine.getElem?_glyph_decimalsStored`: the glyphs of the digits, where the font is in memory and the
  digits have not been written over it.
-/

namespace Chip8

namespace Machine

/-! ## Digits -/

/-- A decimal digit of a byte, by its place from the left among three. -/
def digitAt (value : UInt8) (place : Nat) : Nat := value.toNat / 10 ^ (2 - place) % 10

theorem digitAt_lt (value : UInt8) (place : Nat) : digitAt value place < 10 :=
  Nat.mod_lt _ (by decide)

theorem sum_digitAt (value : UInt8) :
    100 * digitAt value 0 + 10 * digitAt value 1 + digitAt value 2 = value.toNat := by
  have hlt := value.toNat_lt
  simp only [digitAt, Nat.sub_zero, Nat.reducePow, Nat.reduceSub, Nat.pow_zero, Nat.pow_one]
  omega

/-- How much a byte that is stored grows with its digit. -/
def digitUnit : DecimalEncoding → Nat
  | .fontAddress => Font.glyphSize
  | .rawDigits => 1

variable (m : Machine) (x : UInt8)

/-- The bytes that the digits of `Vx` are stored as. -/
def decimalBytes : List UInt8 := (digits (m.reg x)).map (digitByte m.config.decimals)

theorem exists_decimalByte {place : Nat} (h : place < 3) :
    ∃ byte, (m.decimalBytes x)[place]? = some byte ∧
      byte.toNat = digitUnit m.config.decimals * digitAt (m.reg x) place := by
  have hlt := (m.reg x).toNat_lt
  have hbyte {digit : UInt8} (hdigit : digit.toNat = digitAt (m.reg x) place) :
      (digitByte m.config.decimals digit).toNat =
        digitUnit m.config.decimals * digitAt (m.reg x) place := by
    rw [toNat_digitByte _ (hdigit ▸ digitAt_lt (m.reg x) place), hdigit]
    cases m.config.decimals <;> simp [digitUnit, Font.glyphSize]
  obtain rfl | rfl | rfl : place = 0 ∨ place = 1 ∨ place = 2 := by omega
  · refine ⟨_, rfl, hbyte ?_⟩
    simp [digitAt]
    omega
  · exact ⟨_, rfl, hbyte (by simp [digitAt])⟩
  · exact ⟨_, rfl, hbyte (by simp [digitAt])⟩

/-! ## Storing and loading -/

/-- The machine with the digits of `Vx` stored at `I`. -/
def decimalsStored : Machine :=
  { m with memory := overwritten m.memory m.i.toNat (m.decimalBytes x) }

theorem execute_storeDecimal :
    (Instruction.storeDecimal x).execute m = .done (m.decimalsStored x) () := by
  simp only [Instruction.execute, writeBytes_eq]
  rfl

theorem size_memory_decimalsStored : (m.decimalsStored x).memory.size = m.memory.size :=
  size_overwritten m.memory m.i.toNat (m.decimalBytes x)

variable {m x}

/-- Nothing but the three places is written to. -/
theorem getElem?_decimalsStored_of_ne {address : Nat}
    (h : ∀ place < 3, address ≠ (m.i.toNat + place) % m.memory.size) :
    (m.decimalsStored x).memory[address]? = m.memory[address]? :=
  getElem?_overwritten_of_ne fun place hplace heq => h place hplace heq.symm

section Loading

variable (hsize : 3 ≤ m.memory.size) {k : UInt8} (hk : 2 ≤ k) (hbound : k.toNat < 16) {place : Nat}
  (hplace : place < 3)

include hsize hk hbound hplace

/-- The registers get the bytes that have been stored. -/
theorem getElem?_decimalsStored :
    (m.decimalsStored x).memory[(m.i.toNat + place) % m.memory.size]? =
      some (((m.decimalsStored x).loaded k).reg place.toUInt8) := by
  have hle : 2 ≤ k.toNat := UInt8.le_iff_toNat_le.mp hk
  have hr : place.toUInt8.toNat = place := Nat.mod_eq_of_lt (by omega)
  have hmemory := m.size_memory_decimalsStored x
  have hbyte := getElem?_of_loaded (m := m.decimalsStored x) hbound (by omega)
    (r := place.toUInt8) (UInt8.le_iff_toNat_le.mpr (by omega))
  rwa [hr, hmemory] at hbyte

/-- The registers get the digits, each times the unit that it is stored in. -/
theorem toNat_reg_loaded_decimalsStored :
    (((m.decimalsStored x).loaded k).reg place.toUInt8).toNat =
      digitUnit m.config.decimals * digitAt (m.reg x) place := by
  obtain ⟨byte, hbyte, hvalue⟩ := m.exists_decimalByte x hplace
  have hroom : (m.decimalBytes x).length ≤ m.memory.size := hsize
  have hstored : (m.decimalsStored x).memory[(m.i.toNat + place) % m.memory.size]? = some byte :=
    (getElem?_overwritten hroom hplace).trans hbyte
  rw [getElem?_decimalsStored hsize hk hbound hplace] at hstored
  rw [Option.some.inj hstored, hvalue]

end Loading

/-! ## Glyphs -/

/-- The address of the glyph of a digit. -/
theorem execute_loadGlyph_of_digit {n : Machine} {y : UInt8} {digit : Nat} (hdigit : digit < 16)
    (hy : (n.reg y).toNat = digit) :
    ∃ n', (Instruction.loadGlyph y).execute n = .done n' () ∧ n'.i.toNat = 5 * digit := by
  refine ⟨{ n with i := Font.address (n.reg y) }, rfl, ?_⟩
  show (Font.address (n.reg y)).toNat = 5 * digit
  rw [Font.toNat_address, hy, Nat.mod_eq_of_lt hdigit]

/-- A row of a glyph is in memory still, unless a digit has been written over it. -/
theorem getElem?_glyph_decimalsStored (hfont : m.HoldsFont) (hsize : Font.size ≤ m.memory.size)
    {digit row : Nat} (hdigit : digit < 16) (hrow : row < 5)
    (h : ∀ place < 3, (m.i.toNat + place) % m.memory.size ≠ 5 * digit + row) :
    (m.decimalsStored x).memory[5 * digit + row]? =
      Font.glyphs[digit]?.bind fun glyph => glyph[row]? := by
  have hend : 5 * digit + row < Font.size := by
    rw [Font.size]
    omega
  rw [getElem?_decimalsStored_of_ne fun place hplace heq => h place hplace heq.symm,
    hfont.getElem?_memory hend (by omega)]
  exact Font.getElem?_bytes digit hdigit row hrow

/-! ## Round trip -/

/-- The decimal digits of `Vx` are stored at three places from `I` on, around the end of memory, and
nothing else is changed.  A block transfer that follows gets them into the first registers.  These hold
the digits themselves or five times the digits.  Five times a digit is the address that `I` is set to for
its glyph, and the glyph stands there if the font has not been written over before nor by the store. -/
theorem decimal_digits_round_trip {m : Machine} (hconfig : m.config.flaw? = none)
    (hmemory : m.memory.size = m.config.memorySize) {k : UInt8} (hk : 2 ≤ k) (hbound : k.toNat < 16)
    (x : UInt8) :
    let place (j : Nat) := (m.i.toNat + j) % m.memory.size
    ∃ m', (Instruction.storeDecimal x).execute m = .done m' () ∧
      m' = { m with memory := m'.memory } ∧ m'.memory.size = m.memory.size ∧
      (∀ address, (∀ j < 3, address ≠ place j) → m'.memory[address]? = m.memory[address]?) ∧
      ∃ m'', (Instruction.loadRegs k).execute m' = .done m'' () ∧
        let byte (j : Nat) := (m''.reg j.toUInt8).toNat
        (∀ j < 3, m'.memory[place j]? = some (m''.reg j.toUInt8)) ∧
        (m.config.decimals = .rawDigits →
          (∀ j < 3, byte j ≤ 9) ∧ 100 * byte 0 + 10 * byte 1 + byte 2 = (m.reg x).toNat) ∧
        (m.config.decimals = .fontAddress →
          100 * byte 0 + 10 * byte 1 + byte 2 = 5 * (m.reg x).toNat ∧
          ∀ j < 3, ∃ digit ≤ 9, byte j = 5 * digit ∧
            (∀ (n : Machine) (y : UInt8), (n.reg y).toNat = digit →
              ∃ n', (Instruction.loadGlyph y).execute n = .done n' () ∧ n'.i.toNat = byte j) ∧
            (m.HoldsFont → ∀ row < 5, (∀ j' < 3, place j' ≠ byte j + row) →
              m'.memory[byte j + row]? = Font.glyphs[digit]?.bind fun glyph => glyph[row]?)) := by
  intro place
  have hfont := font_lt_size hconfig hmemory
  have hsize : 3 ≤ m.memory.size := by
    have hthree : 3 ≤ Font.size := by decide
    omega
  refine ⟨m.decimalsStored x, m.execute_storeDecimal x, rfl, m.size_memory_decimalsStored x,
    fun address h => getElem?_decimalsStored_of_ne h, (m.decimalsStored x).loaded k,
    execute_loadRegs _ k, ?_⟩
  intro byte
  have hdigits : ∀ j < 3, byte j = digitUnit m.config.decimals * digitAt (m.reg x) j :=
    fun j hj => toNat_reg_loaded_decimalsStored hsize hk hbound hj
  have hlt (j : Nat) := digitAt_lt (m.reg x) j
  have hsum := sum_digitAt (m.reg x)
  refine ⟨fun j hj => getElem?_decimalsStored hsize hk hbound hj, fun hraw => ?_, fun haddress => ?_⟩
  · have hunit : ∀ j < 3, byte j = digitAt (m.reg x) j := fun j hj => by
      rw [hdigits j hj, hraw, digitUnit, Nat.one_mul]
    refine ⟨fun j hj => ?_, ?_⟩
    · rw [hunit j hj]
      exact Nat.le_of_lt_succ (hlt j)
    · rw [hunit 0 (by decide), hunit 1 (by decide), hunit 2 (by decide), hsum]
  · have hunit : ∀ j < 3, byte j = 5 * digitAt (m.reg x) j := fun j hj => by
      rw [hdigits j hj, haddress]
      rfl
    refine ⟨?_, fun j hj => ?_⟩
    · rw [hunit 0 (by decide), hunit 1 (by decide), hunit 2 (by decide)]
      omega
    · have hdigit : digitAt (m.reg x) j < 16 := (hlt j).trans (by decide)
      rw [hunit j hj]
      exact ⟨digitAt (m.reg x) j, Nat.le_of_lt_succ (hlt j), rfl,
        fun n y hy => execute_loadGlyph_of_digit hdigit hy,
        fun hholds row hrow h => getElem?_glyph_decimalsStored hholds hfont.le hdigit hrow h⟩

/-- The last digit of 254 goes to the start of memory, over a row of the glyph of zero.  The glyph of its
first digit is not touched. -/
theorem decimal_digits_round_trip_into_font :
    ∃ m₀, Machine.new { memorySize := 96, loadAddress := 80 } (.replicate 8 0) = .ok m₀ ∧
      let m := Operation.run [.setRegister 1 254, .setIndex 94] m₀
      m.config.flaw? = none ∧ m.memory.size = m.config.memorySize ∧ m.HoldsFont ∧
        ∃ m', (Instruction.storeDecimal 1).execute m = .done m' () ∧
          ∃ m'', (Instruction.loadRegs 2).execute m' = .done m'' () ∧
            m'.memory[94]? = some (m''.reg 0) ∧ m'.memory[0]? = some (m''.reg 2) ∧
            100 * (m''.reg 0).toNat + 10 * (m''.reg 1).toNat + (m''.reg 2).toNat = 5 * 254 ∧
            ∃ digit ≤ 9, (m''.reg 0).toNat = 5 * digit ∧
              ∀ row < 5, m'.memory[(m''.reg 0).toNat + row]? =
                Font.glyphs[digit]?.bind fun glyph => glyph[row]? := by
  obtain ⟨m₀, hnew⟩ :
      ∃ m₀, Machine.new { memorySize := 96, loadAddress := 80 } (.replicate 8 0) = .ok m₀ := ⟨_, rfl⟩
  have hfresh := fresh_of_new hnew
  let m := Operation.run [.setRegister 1 254, .setIndex 94] m₀
  have hsize : m.memory.size = 96 := hfresh.size_memory
  have hmemory : m.memory.size = m.config.memorySize := hfresh.sound.size_memory
  have hconfig : m.config.flaw? = none := hfresh.sound.config
  have hencoding : m.config.decimals = .fontAddress := by
    show m₀.config.decimals = .fontAddress
    rw [hfresh.config_eq]
  have hreg : m.reg 1 = 254 := Registers.read_write ..
  have hi : m.i = 94 := rfl
  have hholds : m.HoldsFont := by
    refine ⟨m₀, [.setRegister 1 254, .setIndex 94], ?_, ?_, ?_⟩
    · rw [hfresh.origin_eq]
      decide
    · simp [Operation.SparesBelow, Operation.written]
    · rw [hfresh.reset_eq]
  obtain ⟨m', hstore, -, -, -, m'', hload, hbytes, -, haddresses⟩ :=
    decimal_digits_round_trip hconfig hmemory (k := 2) (by decide) (by decide) 1
  obtain ⟨hsum, hglyphs⟩ := haddresses hencoding
  obtain ⟨digit, hdigit, hbyte, -, hrows⟩ := hglyphs 0 (by decide)
  obtain ⟨tens, htens, hbyte₁, -⟩ := hglyphs 1 (by decide)
  obtain ⟨ones, hones, hbyte₂, -⟩ := hglyphs 2 (by decide)
  rw [hreg] at hsum
  have hstart : (94 : UInt16).toNat = 94 := by decide
  rw [hsize, hi, hstart] at hbytes hrows
  have hhundreds : digit = 2 := by
    have hvalue : (254 : UInt8).toNat = 254 := by decide
    omega
  refine ⟨m₀, hnew, hconfig, hmemory, hholds, m', hstore, m'', hload, hbytes 0 (by decide),
    hbytes 2 (by decide), hsum, digit, hdigit, hbyte, fun row hrow => ?_⟩
  refine hrows hholds row hrow fun place hplace => ?_
  rw [hbyte, hhundreds]
  dsimp only
  omega

end Machine

end Chip8
