import Chip8.Proofs.Machine.Invariant

/-!
# Loading programs

A load either does not fit and changes nothing, or it sets the program and its origin and resets the
machine.

* `Machine.loadAt_of_le` and `Machine.loadAt_of_lt`: the two cases, and `Machine.eq_reset_of_loadAt`.
* `Machine.getElem?_image`: the memory after a reset, byte by byte.
* `Machine.nextOpcode_reset`: the machine then stands at the first opcode of the program.
* `Machine.Fresh.load`, `Machine.Fresh.getElem?_load`, `Machine.Fresh.nextOpcode_load` and
  `Machine.Fresh.step_load`: the load of a program into a new machine, the memory below it and its
  first step.
* `Machine.exists_loaded`: a reachable machine that stands at a given first opcode.
-/

namespace Chip8

namespace Machine

theorem hasRoomFor_iff {m : Machine} {size : Nat} {origin : UInt16} :
    m.hasRoomFor size origin = true ↔ origin.toNat + size ≤ m.memory.size := by
  simp [hasRoomFor]

theorem loadAt_of_le {m : Machine} {program : Array UInt8} {origin : UInt16}
    (h : origin.toNat + program.size ≤ m.memory.size) :
    m.loadAt program origin = .done ({ m with program, origin } : Machine).reset () := by
  rw [loadAt, if_pos (hasRoomFor_iff.mpr h)]

theorem loadAt_of_lt {m : Machine} {program : Array UInt8} {origin : UInt16}
    (h : m.memory.size < origin.toNat + program.size) :
    m.loadAt program origin =
      .refuse m (.programTooLarge program.size origin m.memory.size) := by
  rw [loadAt, if_neg]
  rw [hasRoomFor_iff]
  omega

/-- A load that succeeds sets the program and its origin and resets the machine. -/
theorem eq_reset_of_loadAt {m m₀ : Machine} {program : Array UInt8} {origin : UInt16}
    (h : m.loadAt program origin = .done m₀ ()) :
    m₀ = ({ m with program, origin } : Machine).reset := by
  unfold loadAt at h
  split at h <;> cases h
  rfl

/-- The program stands at its origin, the font at the start, and there are zeroes elsewhere. -/
theorem getElem?_image {size : Nat} (program : Array UInt8) (origin : Nat) {address : Nat}
    (h : address < size) :
    (image size program origin)[address]? =
      some (if origin ≤ address ∧ address < origin + program.size then
        program.getD (address - origin) 0
      else Font.bytes.getD address 0) := by
  simp [image, h]

/-- The font takes the first eighty bytes. -/
theorem getD_font (address : Nat) :
    Font.bytes.getD address 0 = if address < 80 then Font.bytes.getD address 0 else 0 := by
  have hsize : Font.bytes.size = 80 := by decide
  split
  · rfl
  · rename_i hbehind
    simp [Array.getD, hsize, hbehind]

theorem getElem?_image_of_program {size : Nat} {program : Array UInt8} {origin : Nat}
    (hfits : origin + program.size ≤ size) {place : Nat} (hplace : place < program.size) :
    (image size program origin)[origin + place]? = program[place]? := by
  rw [getElem?_image program origin (by omega), if_pos (by omega)]
  simp [hplace]

/-- A machine that has been reset stands at the first opcode of its program. -/
theorem nextOpcode_reset {m : Machine} {high low : UInt8}
    (hfits : m.origin.toNat + m.program.size ≤ m.memory.size) (hhigh : m.program[0]? = some high)
    (hlow : m.program[1]? = some low) (hnonzero : ¬ (high = 0 ∧ low = 0)) :
    m.reset.nextOpcode = some (.ofBytes high low) := by
  obtain ⟨hsize, -⟩ := Array.getElem?_eq_some_iff.mp hlow
  refine nextOpcode_eq_some_iff.mpr ⟨high, low, ?_, ?_, rfl, hnonzero⟩
  · have hfirst : 0 < m.program.size := by omega
    exact (getElem?_image_of_program hfits hfirst).trans hhigh
  · exact (getElem?_image_of_program hfits hsize).trans hlow

/-- The load of a program that fits into a new machine. -/
theorem Fresh.load {m : Machine} {config : Config} (h : m.Fresh config) {program : Array UInt8}
    (hfits : config.loadAddress.toNat + program.size ≤ config.memorySize) :
    m.load program =
      .done ({ m with program, origin := config.loadAddress } : Machine).reset () := by
  have hroom : m.config.loadAddress.toNat + program.size ≤ m.memory.size := by
    rw [h.size_memory, h.config_eq]
    exact hfits
  rw [Machine.load, loadAt_of_le hroom, h.config_eq]

/-- Below the program the font is in memory. -/
theorem Fresh.getElem?_load {m : Machine} {config : Config} (h : m.Fresh config)
    {program : Array UInt8} (hfits : config.loadAddress.toNat + program.size ≤ config.memorySize)
    {address : Nat} (hlt : address < config.loadAddress.toNat) :
    (m.load program).state.memory[address]? = some (Font.bytes.getD address 0) := by
  have hroom : address < m.memory.size := by
    rw [h.size_memory]
    omega
  rw [h.load hfits]
  exact (getElem?_image program config.loadAddress.toNat hroom).trans
    (congrArg some (if_neg (by omega)))

/-- A program that has been loaded into a new machine has its first opcode before it. -/
theorem Fresh.nextOpcode_load {m : Machine} {config : Config} (h : m.Fresh config)
    {program : Array UInt8} (hfits : config.loadAddress.toNat + program.size ≤ config.memorySize)
    {high low : UInt8} (hhigh : program[0]? = some high) (hlow : program[1]? = some low)
    (hnonzero : ¬ (high = 0 ∧ low = 0)) :
    (m.load program).state.nextOpcode = some (.ofBytes high low) := by
  have hroom : config.loadAddress.toNat + program.size ≤ m.memory.size := by
    rw [h.size_memory]
    exact hfits
  rw [h.load hfits]
  exact nextOpcode_reset hroom hhigh hlow hnonzero

/-- The first step of a program that has been loaded into a new machine. -/
theorem Fresh.step_load {m m' : Machine} {config : Config} (h : m.Fresh config)
    {program : Array UInt8} (hfits : config.loadAddress.toNat + program.size ≤ config.memorySize)
    {high low : UInt8} (hhigh : program[0]? = some high) (hlow : program[1]? = some low)
    (hnonzero : ¬ (high = 0 ∧ low = 0)) {i : Instruction}
    (hdecode : (Opcode.ofBytes high low).decode = .ok i)
    (hexecute : i.execute (m.load program).state = .done m' ()) :
    (m.load program).state.step =
      .done ((m'.moveOn i).withDecoder (m.decoder.decode (.ofBytes high low)).1) () := by
  have hsound : (m.load program).state.Sound := h.sound.loadAt program m.config.loadAddress
  have hopcode := h.nextOpcode_load hfits hhigh hlow hnonzero
  rw [h.load hfits] at hexecute hsound hopcode ⊢
  exact hsound.step_of_execute rfl hopcode hdecode hexecute

/-- A machine into which a program has been loaded stands at its first opcode, with nothing on its stack
and a dark screen. -/
theorem exists_loaded (program : Array UInt8) (high low : UInt8)
    (hfits : 512 + program.size ≤ 4096) (hhigh : program[0]? = some high)
    (hlow : program[1]? = some low) (hnonzero : ¬ (high = 0 ∧ low = 0)) :
    ∃ m : Machine, m.Reachable ∧ m.exitCode = none ∧ m.stack.frames = [] ∧ m.screen = .standard ∧
      m.nextOpcode = some (.ofBytes high low) := by
  obtain ⟨m, hnew⟩ : ∃ m, Machine.new {} (.replicate 8 0) = .ok m := ⟨_, rfl⟩
  have hfresh := fresh_of_new hnew
  have hload : m.load program = _ := hfresh.load hfits
  have hlegal : program.size < arrayLimit := by
    have hlimit : 4096 < arrayLimit := by decide
    omega
  have hscreen : (m.load program).state.screen = .standard := by
    rw [hload]
    exact (congrArg Screen.clear hfresh.screen_eq).trans clear_standard
  refine ⟨_, .apply (.load program) (.new hnew) hlegal, ?_, ?_, hscreen,
    hfresh.nextOpcode_load hfits hhigh hlow hnonzero⟩
  · show (m.load program).state.exitCode = none
    rw [hload]
    rfl
  · show (m.load program).state.stack.frames = []
    rw [hload]
    rfl

end Machine

end Chip8
