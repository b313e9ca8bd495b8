import Mathlib.Data.Nat.ModEq
import Chip8.Proofs.Machine.Invariant

/-!
# Block transfers

A block transfer copies the first registers to or from consecutive places in memory, which go on at the
start of memory behind its end.  In a memory that is no smaller than the block these places are
different, so what has been stored can be loaded again.

* `Machine.getElem?_overwritten` and `getElem?_overwritten_of_ne`: bytes that are written one after the
  other stand where they have been written, and everywhere else nothing changes.
* `Machine.read_filled`: registers that are read one after the other.
* `Machine.stored` and `Machine.loaded`: a machine after a block transfer.
-/

namespace Chip8

namespace Machine

/-! ## Bytes one after the other -/

/-- In a ring of `size` places the first `size` places from an address on are different. -/
theorem offset_eq_of_place_eq {size address a b : Nat} (ha : a < size) (hb : b < size)
    (h : (address + a) % size = (address + b) % size) : a = b :=
  Nat.ModEq.eq_of_lt_of_lt (Nat.ModEq.add_left_cancel' address h) ha hb

section Overwritten

variable {memory : Array UInt8} {address : Nat} {bytes : List UInt8}

/-- A place that no byte is written to keeps its byte. -/
theorem getElem?_overwritten_of_ne {place : Nat}
    (h : ∀ offset < bytes.length, (address + offset) % memory.size ≠ place) :
    (overwritten memory address bytes)[place]? = memory[place]? := by
  induction bytes generalizing memory address with
  | nil => rfl
  | cons byte rest ih =>
    have hfirst : address % memory.size ≠ place := h 0 (by simp)
    have hrest : ∀ offset < rest.length, (address + 1 + offset) % memory.size ≠ place := by
      intro offset hoffset
      rw [Nat.add_assoc, Nat.add_comm 1]
      exact h (offset + 1) (by simpa using hoffset)
    rw [overwritten, ih (by simpa using hrest), Array.getElem?_setIfInBounds_ne hfirst]

/-- The bytes stand one behind the other, if there are no more of them than places. -/
theorem getElem?_overwritten (hroom : bytes.length ≤ memory.size) {offset : Nat}
    (hoffset : offset < bytes.length) :
    (overwritten memory address bytes)[(address + offset) % memory.size]? = bytes[offset]? := by
  induction bytes generalizing memory address offset with
  | nil => simp at hoffset
  | cons byte rest ih =>
    rw [List.length_cons] at hroom hoffset
    have hsize : (memory.setIfInBounds (address % memory.size) byte).size = memory.size := by simp
    rw [overwritten]
    cases offset with
    | zero =>
      -- The bytes behind the first do not come around to its place.
      have hothers : ∀ later < rest.length, (address + 1 + later) % memory.size ≠
          (address + 0) % memory.size := by
        intro later hlater heq
        rw [Nat.add_assoc] at heq
        have := offset_eq_of_place_eq (by omega) (by omega) heq
        omega
      rw [getElem?_overwritten_of_ne (by simpa only [hsize] using hothers)]
      have hlt : address % memory.size < memory.size := Nat.mod_lt _ (by omega)
      simp [hlt]
    | succ offset =>
      have hrest : (overwritten (memory.setIfInBounds (address % memory.size) byte) (address + 1)
            rest)[(address + 1 + offset) %
              (memory.setIfInBounds (address % memory.size) byte).size]? = rest[offset]? :=
        ih (by omega) (by omega)
      rw [hsize] at hrest
      rw [← Nat.add_assoc, Nat.add_right_comm, hrest, List.getElem?_cons_succ]

/-- Writing what is there changes nothing. -/
theorem overwritten_eq_self
    (h : ∀ offset < bytes.length, memory[(address + offset) % memory.size]? = bytes[offset]?) :
    overwritten memory address bytes = memory := by
  induction bytes generalizing address with
  | nil => rfl
  | cons byte rest ih =>
    have hfirst : memory[address % memory.size]? = some byte := h 0 (by simp)
    have hkept : memory.setIfInBounds (address % memory.size) byte = memory := by
      obtain ⟨hlt, hbyte⟩ := Array.getElem?_eq_some_iff.mp hfirst
      rw [Array.setIfInBounds, dif_pos hlt, ← hbyte, Array.set_getElem_self]
    rw [overwritten, hkept]
    refine ih fun offset hoffset => ?_
    rw [Nat.add_assoc, Nat.add_comm 1]
    exact h (offset + 1) (by simpa using hoffset)

end Overwritten

/-! ## Registers one after the other -/

/-- Consecutive registers get the bytes of consecutive places. -/
private theorem read_filled_aux (memory : Array UInt8) (v : Registers) (address first count : Nat)
    (hcount : first + count ≤ 16) {r : UInt8} (hr : r.toNat < 16) :
    (filled memory v (address + first) ((List.range' first count).map Nat.toUInt8)).read r =
      if first ≤ r.toNat ∧ r.toNat < first + count then
        memory.getD ((address + r.toNat) % memory.size) 0
      else v.read r := by
  induction count generalizing v first with
  | zero => rw [if_neg (by omega)]; rfl
  | succ count ih =>
    have hfirst : first.toUInt8.toNat = first := Nat.mod_eq_of_lt (by omega)
    rw [List.range'_succ, List.map_cons, filled, Nat.add_assoc, ih _ (first + 1) (by omega),
      Registers.read_write, hfirst, Nat.mod_eq_of_lt (by omega : first < 16), Nat.mod_eq_of_lt hr]
    by_cases heq : first = r.toNat
    · rw [if_neg (by omega), if_pos heq, if_pos (by omega), heq]
    · rw [if_neg heq]
      by_cases hin : first + 1 ≤ r.toNat ∧ r.toNat < first + 1 + count
      · rw [if_pos hin, if_pos (by omega)]
      · rw [if_neg hin, if_neg (by omega)]

/-- The registers up to `x` get the bytes from an address on, and the others are left alone. -/
theorem read_filled (memory : Array UInt8) (v : Registers) (address : Nat) {x r : UInt8}
    (hx : x.toNat < 16) (hr : r.toNat < 16) :
    (filled memory v address (blockRegisters x)).read r =
      if r ≤ x then memory.getD ((address + r.toNat) % memory.size) 0 else v.read r := by
  have hle : r ≤ x ↔ r.toNat ≤ x.toNat := UInt8.le_iff_toNat_le
  have hblock := read_filled_aux memory v address 0 (x.toNat + 1) (by omega) hr
  rw [Nat.add_zero, ← List.range_eq_range'] at hblock
  rw [blockRegisters, hblock]
  simp only [hle]
  by_cases hin : r.toNat ≤ x.toNat
  · rw [if_pos (by omega), if_pos hin]
  · rw [if_neg (by omega), if_neg hin]

end Machine

namespace Registers

/-- The bytes of the registers up to `x`. -/
def block (v : Registers) (x : UInt8) : List UInt8 := (Machine.blockRegisters x).map v.read

variable (v : Registers) (x : UInt8)

theorem length_block : (v.block x).length = x.toNat + 1 := by
  simp [block, Machine.blockRegisters]

theorem getElem?_block {r : UInt8} (hr : r ≤ x) : (v.block x)[r.toNat]? = some (v.read r) := by
  have hlt : r.toNat < x.toNat + 1 := Nat.lt_succ_of_le (UInt8.le_iff_toNat_le.mp hr)
  simp [block, Machine.blockRegisters, hlt]

end Registers

namespace Machine

/-- The offsets of the bytes of a block are the numbers of its registers. -/
theorem forall_offset_iff {x : UInt8} {p : Nat → Prop} :
    (∀ offset < x.toNat + 1, p offset) ↔ ∀ r ≤ x, p r.toNat := by
  refine ⟨fun h r hr => h r.toNat (Nat.lt_succ_of_le (UInt8.le_iff_toNat_le.mp hr)),
    fun h offset hoffset => ?_⟩
  have hx := x.toNat_lt
  have hr : offset.toUInt8.toNat = offset := Nat.mod_eq_of_lt (by omega)
  exact hr ▸ h offset.toUInt8 (UInt8.le_iff_toNat_le.mpr (by omega))

/-! ## The machine after a block transfer -/

variable (m : Machine) (x : UInt8)

/-- What `I` is after a block transfer up to register `x`. -/
def nextIndex : UInt16 := if m.config.advanceIndex then m.i + x.toUInt16 + 1 else m.i

/-- The machine with the registers up to `x` stored at `I`. -/
def stored : Machine :=
  { m with memory := overwritten m.memory m.i.toNat (m.v.block x), i := m.nextIndex x }

/-- The machine with the registers up to `x` loaded from `I`. -/
def loaded : Machine :=
  { m with v := filled m.memory m.v m.i.toNat (blockRegisters x), i := m.nextIndex x }

theorem execute_storeRegs : (Instruction.storeRegs x).execute m = .done (m.stored x) () := by
  simp only [Instruction.execute, passBlock_eq, writeBytes_eq]
  rfl

theorem execute_loadRegs : (Instruction.loadRegs x).execute m = .done (m.loaded x) () := by
  simp only [Instruction.execute, passBlock_eq, readRegisters_eq]
  rfl

theorem toNat_nextIndex :
    (m.nextIndex x).toNat =
      if m.config.advanceIndex then (m.i.toNat + x.toNat + 1) % 65536 else m.i.toNat := by
  have hx := x.toNat_lt
  unfold nextIndex
  split
  · simp only [UInt16.toNat_add, UInt8.toNat_toUInt16, UInt16.toNat_one]
    omega
  · rfl

theorem size_memory_stored : (m.stored x).memory.size = m.memory.size :=
  size_overwritten m.memory m.i.toNat (m.v.block x)

variable {m x}

/-- The registers of a block stand in memory one behind the other. -/
theorem getElem?_stored (hroom : x.toNat < m.memory.size) {r : UInt8} (hr : r ≤ x) :
    (m.stored x).memory[(m.i.toNat + r.toNat) % m.memory.size]? = some (m.reg r) := by
  have hlt : r.toNat ≤ x.toNat := UInt8.le_iff_toNat_le.mp hr
  have hlength := m.v.length_block x
  exact (getElem?_overwritten (by omega) (by omega)).trans (m.v.getElem?_block x hr)

/-- Nothing else in memory is changed. -/
theorem getElem?_stored_of_ne {address : Nat}
    (h : ∀ r ≤ x, address ≠ (m.i.toNat + r.toNat) % m.memory.size) :
    (m.stored x).memory[address]? = m.memory[address]? := by
  refine getElem?_overwritten_of_ne ?_
  rw [m.v.length_block x, forall_offset_iff]
  exact fun r hr heq => h r hr heq.symm

theorem reg_loaded (hx : x.toNat < 16) {r : UInt8} (hr : r.toNat < 16) :
    (m.loaded x).reg r =
      if r ≤ x then m.memory.getD ((m.i.toNat + r.toNat) % m.memory.size) 0 else m.reg r :=
  read_filled m.memory m.v m.i.toNat hx hr

/-- The registers of a block have the bytes in memory. -/
theorem getElem?_of_loaded (hx : x.toNat < 16) (hsize : 0 < m.memory.size) {r : UInt8}
    (hr : r ≤ x) :
    m.memory[(m.i.toNat + r.toNat) % m.memory.size]? = some ((m.loaded x).reg r) := by
  have hlt : r.toNat ≤ x.toNat := UInt8.le_iff_toNat_le.mp hr
  have hplace := Nat.mod_lt (m.i.toNat + r.toNat) hsize
  rw [reg_loaded hx (by omega), if_pos hr]
  simp [hplace]

/-- The registers of a block are loaded from where they have been stored, whatever has become of them in
the meantime. -/
theorem reg_loaded_stored (hx : x.toNat < 16) (hroom : x.toNat < m.memory.size) (v : Registers)
    {r : UInt8} (hr : r.toNat < 16) :
    (({ m.stored x with v, i := m.i } : Machine).loaded x).reg r =
      if r ≤ x then m.reg r else v.read r := by
  rw [reg_loaded hx hr]
  split
  · rename_i hle
    simp only [size_memory_stored]
    rw [Array.getD_eq_getD_getElem?, getElem?_stored hroom hle, Option.getD_some]
  · rfl

/-- Registers that are stored where they have been loaded from change nothing. -/
theorem stored_loaded (hx : x.toNat < 16) (hsize : 0 < m.memory.size) :
    ({ m.loaded x with i := m.i } : Machine).stored x = m.loaded x := by
  have hkept : overwritten m.memory m.i.toNat ((m.loaded x).v.block x) = m.memory := by
    refine overwritten_eq_self ?_
    rw [Registers.length_block, forall_offset_iff]
    intro r hr
    exact (getElem?_of_loaded hx hsize hr).trans ((m.loaded x).v.getElem?_block x hr).symm
  exact congrArg (fun memory => ({ m.loaded x with memory } : Machine)) hkept

/-! ## Round trips -/

/-- A block transfer up to register `x` copies between `x + 1` registers and as many different places in
memory, from `I` on and around the end of memory, and changes nothing else but perhaps `I`.  So what has
been stored comes back with a load from there, whatever the registers hold by then, and what has been
loaded is not changed by a store to there. -/
theorem block_transfers_round_trip {m : Machine} (hconfig : m.config.flaw? = none)
    (hmemory : m.memory.size = m.config.memorySize) {x : UInt8} (hx : x.toNat < 16) :
    let place (r : UInt8) := (m.i.toNat + r.toNat) % m.memory.size
    let behind := if m.config.advanceIndex then (m.i.toNat + x.toNat + 1) % 65536 else m.i.toNat
    (∀ r ≤ x, ∀ s ≤ x, place r = place s → r = s) ∧
    (∃ m', (Instruction.storeRegs x).execute m = .done m' () ∧
      m' = { m with memory := m'.memory, i := m'.i } ∧ m'.i.toNat = behind ∧
      m'.memory.size = m.memory.size ∧
      (∀ r ≤ x, m'.memory[place r]? = some (m.reg r)) ∧
      (∀ address, (∀ r ≤ x, address ≠ place r) → m'.memory[address]? = m.memory[address]?) ∧
      ∀ v : Registers, ∃ m'', (Instruction.loadRegs x).execute { m' with v, i := m.i } = .done m'' () ∧
        m'' = { m' with v := m''.v, i := m''.i } ∧ m''.i.toNat = behind ∧
        (∀ r ≤ x, m''.reg r = m.reg r) ∧
        ∀ r, x < r → r.toNat < 16 → m''.reg r = v.read r) ∧
    (∃ m', (Instruction.loadRegs x).execute m = .done m' () ∧
      m' = { m with v := m'.v, i := m'.i } ∧ m'.i.toNat = behind ∧
      (∀ r ≤ x, m.memory[place r]? = some (m'.reg r)) ∧
      (∀ r, x < r → r.toNat < 16 → m'.reg r = m.reg r) ∧
      ∃ m'', (Instruction.storeRegs x).execute { m' with i := m.i } = .done m'' () ∧
        m'' = { m' with i := m''.i } ∧ m''.i.toNat = behind) := by
  intro place behind
  have hfont := font_lt_size hconfig hmemory
  have hsixteen : 16 ≤ Font.size := by decide
  have hle {r : UInt8} (hr : r ≤ x) : r.toNat ≤ x.toNat := UInt8.le_iff_toNat_le.mp hr
  have hnot {r : UInt8} (hr : x < r) : ¬ r ≤ x := UInt8.not_le.mpr hr
  have hbehind : (m.nextIndex x).toNat = behind := m.toNat_nextIndex x
  refine ⟨fun r hr s hs h => ?_, ⟨m.stored x, m.execute_storeRegs x, rfl, hbehind,
    m.size_memory_stored x, fun r hr => getElem?_stored (by omega) hr,
    fun address h => getElem?_stored_of_ne h, fun v => ?_⟩, ?_⟩
  · have hr' := hle hr
    have hs' := hle hs
    exact UInt8.toNat_inj.mp (offset_eq_of_place_eq (by omega) (by omega) h)
  · refine ⟨_, execute_loadRegs _ x, rfl, hbehind, fun r hr => ?_, fun r hr hlt => ?_⟩
    · have hr' := hle hr
      rw [reg_loaded_stored hx (by omega) v (by omega), if_pos hr]
    · rw [reg_loaded_stored hx (by omega) v hlt, if_neg (hnot hr)]
  · refine ⟨m.loaded x, m.execute_loadRegs x, rfl, hbehind,
      fun r hr => getElem?_of_loaded hx (by omega) hr, fun r hr hlt => ?_, ?_⟩
    · rw [reg_loaded hx hlt, if_neg (hnot hr)]
    · refine ⟨m.loaded x, ?_, rfl, hbehind⟩
      rw [execute_storeRegs, stored_loaded hx (by omega)]

/-- All registers in a block that goes around the end of memory, with the seventh at its start. -/
theorem block_transfers_round_trip_around_end :
    ∃ m₀, Machine.new { memorySize := 96, loadAddress := 80, advanceIndex := true }
        (.replicate 8 0) = .ok m₀ ∧
      let m : Machine := { m₀ with i := 90, v := Vector.ofFn fun r => r.val.toUInt8 + 1 }
      m.config.flaw? = none ∧ m.memory.size = m.config.memorySize ∧ (15 : UInt8).toNat < 16 ∧
        ∃ m', (Instruction.storeRegs 15).execute m = .done m' () ∧ m'.i.toNat = 106 ∧
          m'.memory[0]? = some 7 ∧
          ∃ m'', (Instruction.loadRegs 15).execute { m' with v := .zero, i := 90 } = .done m'' () ∧
            m''.reg 6 = 7 := by
  obtain ⟨m₀, hnew⟩ : ∃ m₀, Machine.new
      { memorySize := 96, loadAddress := 80, advanceIndex := true } (.replicate 8 0) = .ok m₀ :=
    ⟨_, rfl⟩
  have hfresh := fresh_of_new hnew
  have hsize : m₀.memory.size = 96 := hfresh.size_memory
  have hmemory := hfresh.sound.size_memory
  have hadvance : m₀.config.advanceIndex = true := by rw [hfresh.config_eq]
  obtain ⟨-, ⟨m', hstore, -, hi, -, hbytes, -, hback⟩, -⟩ := block_transfers_round_trip
    (m := { m₀ with i := 90, v := Vector.ofFn fun r => r.val.toUInt8 + 1 })
    hfresh.sound.config hmemory (x := 15) (by decide)
  obtain ⟨m'', hload, -, -, hregs, -⟩ := hback .zero
  have hseventh := hbytes 6 (by decide)
  simp only [hsize] at hseventh
  simp only [hadvance, if_true] at hi
  exact ⟨m₀, hnew, hfresh.sound.config, hmemory, by decide, m', hstore, hi, hseventh, m'', hload,
    hregs 6 (by decide)⟩

end Machine

end Chip8
