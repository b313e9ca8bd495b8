import Chip8.Proofs.Decoder.Transparency

/-!
# Machines that a host can reach

A host makes a machine from a configuration and carries out operations on it.  `Machine.Reachable`
are the machines that it gets in this way, `Operation.Legal` says what it has to see to, and
`Machine.Sound` is what all of these machines have in common.

* `Config.flaw?_eq_none_iff`: the configurations that describe a machine.
* `Machine.Sound.stepped`: what a step of a sound machine can do, in five cases, and
  `Machine.Sound.step_of_execute` and its siblings for each of them.
* `Operation.sound_apply` and `Machine.Reachable.sound`: every machine that a host can reach is
  sound.
-/

namespace Chip8

/-- A machine has at least room for the font and one byte behind it, and sixteen bits address all of
its memory. -/
theorem Config.flaw?_eq_none_iff {c : Config} :
    c.flaw? = none ↔
      Font.size ≤ c.loadAddress.toNat ∧ c.loadAddress.toNat < c.memorySize ∧
        c.memorySize ≤ 65536 := by
  unfold flaw?
  constructor
  · intro h
    split at h
    · cases h
    split at h
    · cases h
    split at h
    · cases h
    omega
  · rintro ⟨hfont, hload, hsize⟩
    rw [if_neg (by omega), if_neg (by omega), if_neg (by omega)]

namespace Machine

/-! ## The invariant -/

/-- The number of elements that an array can have at most. -/
def arrayLimit : Nat := 2 ^ 63

/-- What a machine keeps between the operations of its host. -/
structure Sound (m : Machine) : Prop where
  config : m.config.flaw? = none
  size_memory : m.memory.size = m.config.memorySize
  program_fits : m.origin.toNat + m.program.size ≤ m.memory.size
  screen : m.screen.WellFormed
  pixels_lt : m.screen.height * m.screen.width < arrayLimit
  executing : m.executing = false
  decoder : m.decoder.Coherent

/-- A memory of an accepted size ends behind the font. -/
theorem font_lt_size {m : Machine} (hconfig : m.config.flaw? = none)
    (hmemory : m.memory.size = m.config.memorySize) : Font.size < m.memory.size := by
  have := Config.flaw?_eq_none_iff.mp hconfig
  omega

namespace Sound

variable {m m' : Machine}

theorem size_memory_le (h : m.Sound) : m.memory.size ≤ 65536 := by
  have := Config.flaw?_eq_none_iff.mp h.config
  rw [h.size_memory]
  omega

theorem font_lt_size_memory (h : m.Sound) : Font.size < m.memory.size :=
  font_lt_size h.config h.size_memory

theorem memory_pos (h : m.Sound) : 0 < m.memory.size := Nat.zero_lt_of_lt h.font_lt_size_memory

/-- Nothing that works on the program's part of the machine and keeps its frame breaks it. -/
theorem of_sameFrame (h : m.Sound) (hframe : SameFrame m m') (hhost : m' = m'.hostedBy m) :
    m'.Sound := by
  have hprogram : m'.program = m.program := by
    rw [hhost]
    rfl
  have horigin : m'.origin = m.origin := by
    rw [hhost]
    rfl
  have hexecuting : m'.executing = m.executing := by
    rw [hhost]
    rfl
  have hdecoder : m'.decoder = m.decoder := by
    rw [hhost]
    rfl
  refine ⟨hframe.config ▸ h.config, ?_, ?_, hframe.screen.wellFormed h.screen, ?_,
    hexecuting.trans h.executing, hdecoder ▸ h.decoder⟩
  · rw [hframe.size_memory, hframe.config, h.size_memory]
  · rw [hprogram, horigin, hframe.size_memory]
    exact h.program_fits
  · rw [hframe.screen.height, hframe.screen.width]
    exact h.pixels_lt

theorem withDecoder (h : m.Sound) {d : Decoder} (hd : d.Coherent) : (m.withDecoder d).Sound :=
  { h with decoder := hd }

theorem seeing (h : m.Sound) (w : Opcode) : (m.seeing w).Sound :=
  h.withDecoder (h.decoder.decode w)

theorem execute (h : m.Sound) (i : Instruction) : (i.execute m).state.Sound :=
  h.of_sameFrame (i.sameFrame_execute m) (i.state_execute_eq m)

theorem moveOn (h : m.Sound) (i : Instruction) : (m.moveOn i).Sound := by
  unfold Machine.moveOn
  split
  · exact h
  · exact { h with }

theorem reset (h : m.Sound) : m.reset.Sound :=
  { h with
    size_memory := (size_image ..).trans h.size_memory
    program_fits := (size_image m.memory.size m.program m.origin.toNat).symm ▸ h.program_fits
    screen := m.screen.sameShape_clear.wellFormed h.screen
    executing := rfl }

theorem loadAt (h : m.Sound) (program : Array UInt8) (origin : UInt16) :
    (m.loadAt program origin).state.Sound := by
  unfold Machine.loadAt
  split
  · rename_i hroom
    have hfits : origin.toNat + program.size ≤ m.memory.size := by simpa [hasRoomFor] using hroom
    have hloaded : ({ m with program, origin } : Machine).Sound :=
      { h with program_fits := hfits }
    exact hloaded.reset
  · exact h

theorem of_loadAt (h : m.Sound) {program : Array UInt8} {origin : UInt16}
    (hload : m.loadAt program origin = .done m' ()) : m'.Sound := by
  have hloaded := h.loadAt program origin
  rwa [hload] at hloaded

end Sound

/-- What a step of a machine can do. -/
inductive Stepped (m : Machine) : Prop
  /-- The machine has halted before and stays as it is. -/
  | halted (hhalted : m.hasHalted) (hstep : m.step = .done m ())
  /-- The program ends at the program counter. -/
  | halts (hrunning : m.hasHalted = false) (hopcode : m.nextOpcode = none)
      (hstep : m.step = .done { m with exitCode := some 0 } ())
  /-- The opcode at the program counter is unknown. -/
  | unknown (w : Opcode) (hrunning : m.hasHalted = false) (hopcode : m.nextOpcode = some w)
      (hdecode : w.decode = .error (.unknownOpcode w))
      (hstep : m.step = .refuse (m.seeing w) (.unknownOpcode w))
  /-- The instruction at the program counter fails. -/
  | refused (w : Opcode) (i : Instruction) (fault : Fault) (hrunning : m.hasHalted = false)
      (hopcode : m.nextOpcode = some w) (hdecode : w.decode = .ok i)
      (hexecute : i.execute m = .refuse m fault) (hstep : m.step = .refuse (m.seeing w) fault)
  /-- The instruction at the program counter is executed. -/
  | performed (w : Opcode) (i : Instruction) (m' : Machine) (hrunning : m.hasHalted = false)
      (hopcode : m.nextOpcode = some w) (hdecode : w.decode = .ok i)
      (hexecute : i.execute m = .done m' ())
      (hstep : m.step = .done ((m'.moveOn i).withDecoder (m.decoder.decode w).1) ())

/-- An instruction either is executed or is refused and then leaves the machine as it is. -/
theorem execute_cases (i : Instruction) {m : Machine} (hs : m.screen.WellFormed) :
    (∃ m', i.execute m = .done m' ()) ∨ ∃ fault, i.execute m = .refuse m fault := by
  cases hresult : (i.execute m).result with
  | ok answer => exact .inl ⟨_, Outcome.eq_done hresult⟩
  | error failure =>
    have hstate := i.state_execute_of_error hs hresult
    obtain ⟨-, -, rfl⟩ | ⟨-, rfl⟩ := (Instruction.execute_eq_error_iff hs).mp hresult
    · exact .inr ⟨_, by rw [Outcome.refuse, ← hresult]; exact congrArg (Outcome.mk · _) hstate⟩
    · exact .inr ⟨_, by rw [Outcome.refuse, ← hresult]; exact congrArg (Outcome.mk · _) hstate⟩

/-- A step of a machine that has not halted, by the meaning of the opcode at the program counter. -/
theorem Sound.step_of_running {m : Machine} (h : m.Sound) (hrunning : m.exitCode = none) :
    m.step =
      match m.nextOpcode with
      | none => .done { m with exitCode := some 0 } ()
      | some w =>
        match w.decode with
        | .error fault => .refuse (m.seeing w) fault
        | .ok i => (m.seeing w).perform i := by
  have hstep := step_eq h.decoder
  rw [if_neg (by simp [hasHalted_eq_false_iff.mpr hrunning]),
    if_neg (by simp [h.executing])] at hstep
  exact hstep

theorem Sound.stepped {m : Machine} (h : m.Sound) : m.Stepped := by
  cases hhalted : m.hasHalted with
  | true => exact .halted hhalted (by rw [step_eq h.decoder, if_pos hhalted])
  | false =>
    have hstep := h.step_of_running (hasHalted_eq_false_iff.mp hhalted)
    cases hopcode : m.nextOpcode with
    | none =>
      rw [hopcode] at hstep
      exact .halts hhalted hopcode hstep
    | some w =>
      simp only [hopcode] at hstep
      cases hdecode : w.decode with
      | error fault =>
        simp only [hdecode] at hstep
        obtain ⟨-, rfl⟩ := Opcode.decode_eq_error_iff.mp hdecode
        exact .unknown w hhalted hopcode hdecode hstep
      | ok i =>
        simp only [hdecode] at hstep
        rw [Machine.seeing, perform_withDecoder, perform_eq h.executing] at hstep
        obtain ⟨m', hexecute⟩ | ⟨fault, hexecute⟩ := execute_cases i h.screen
        · rw [hexecute] at hstep
          exact .performed w i m' hhalted hopcode hdecode hexecute hstep
        · rw [hexecute] at hstep
          exact .refused w i fault hhalted hopcode hdecode hexecute hstep

/-- The step on an opcode that can be decoded. -/
theorem Sound.step_of_decode {m : Machine} (h : m.Sound) {w : Opcode} {i : Instruction}
    (hrunning : m.exitCode = none) (hopcode : m.nextOpcode = some w) (hdecode : w.decode = .ok i) :
    m.step = (m.perform i).within (·.withDecoder (m.decoder.decode w).1) := by
  simp only [h.step_of_running hrunning, hopcode, hdecode]
  rw [Machine.seeing, perform_withDecoder]

/-- The step on an opcode that cannot be decoded. -/
theorem Sound.step_of_decode_eq_error {m : Machine} (h : m.Sound) {w : Opcode} {fault : Fault}
    (hrunning : m.exitCode = none) (hopcode : m.nextOpcode = some w)
    (hdecode : w.decode = .error fault) : m.step = .refuse (m.seeing w) fault := by
  simp only [h.step_of_running hrunning, hopcode, hdecode]

/-- The step that executes an instruction. -/
theorem Sound.step_of_execute {m m' : Machine} (h : m.Sound) {w : Opcode} {i : Instruction}
    (hrunning : m.exitCode = none) (hopcode : m.nextOpcode = some w) (hdecode : w.decode = .ok i)
    (hexecute : i.execute m = .done m' ()) :
    m.step = .done ((m'.moveOn i).withDecoder (m.decoder.decode w).1) () := by
  rw [h.step_of_decode hrunning hopcode hdecode, perform_eq h.executing, hexecute]
  rfl

/-- The step on an instruction that fails. -/
theorem Sound.step_of_refuse {m : Machine} (h : m.Sound) {w : Opcode} {i : Instruction}
    {fault : Fault} (hrunning : m.exitCode = none) (hopcode : m.nextOpcode = some w)
    (hdecode : w.decode = .ok i) (hexecute : i.execute m = .refuse m fault) :
    m.step = .refuse (m.seeing w) fault := by
  rw [h.step_of_decode hrunning hopcode hdecode, perform_eq h.executing, hexecute]
  rfl

theorem Sound.step {m : Machine} (h : m.Sound) : m.step.state.Sound := by
  cases h.stepped with
  | halted hhalted hstep => exact hstep ▸ h
  | halts hrunning hopcode hstep =>
    rw [hstep]
    exact { h with }
  | unknown w hrunning hopcode hdecode hstep => exact hstep ▸ h.seeing w
  | refused w i fault hrunning hopcode hdecode hexecute hstep => exact hstep ▸ h.seeing w
  | performed w i m' hrunning hopcode hdecode hexecute hstep =>
    have hm' : (i.execute m).state.Sound := h.execute i
    rw [hexecute] at hm'
    rw [hstep]
    exact (hm'.moveOn i).withDecoder (h.decoder.decode w)

theorem pixels_standard_lt : Screen.standard.height * Screen.standard.width < arrayLimit := by
  decide

theorem Sound.config_step {m : Machine} (h : m.Sound) : m.step.state.config = m.config := by
  cases h.stepped with
  | halted hhalted hstep => rw [hstep]; rfl
  | halts hrunning hopcode hstep => rw [hstep]; rfl
  | unknown w hrunning hopcode hdecode hstep => rw [hstep]; rfl
  | refused w i fault hrunning hopcode hdecode hexecute hstep => rw [hstep]; rfl
  | performed w i m' hrunning hopcode hdecode hexecute hstep =>
    have hconfig : (i.execute m).state.config = m.config := (i.sameFrame_execute m).config
    rw [hexecute] at hconfig
    have hmoved : (m'.moveOn i).config = m'.config := by
      unfold Machine.moveOn
      split <;> rfl
    rw [hstep]
    exact hmoved.trans hconfig

theorem clear_standard : Screen.standard.clear = Screen.standard := by
  simp [Screen.clear, Screen.standard, Screen.dark]

/-- A machine as it is made from a configuration. -/
structure Fresh (m : Machine) (config : Config) : Prop where
  config_eq : m.config = config
  reset_eq : m.reset = m
  screen_eq : m.screen = .standard
  sound : m.Sound
  keypad_eq : m.keypad = {}
  program_eq : m.program = #[]
  origin_eq : m.origin = config.loadAddress

theorem fresh_of_new {config : Config} {entropy : Random.Key} {m : Machine}
    (h : Machine.new config entropy = .ok m) :
    m.Fresh config := by
  unfold Machine.new Config.validate at h
  cases hflaw : config.flaw? with
  | some flaw =>
    rw [hflaw] at h
    cases h
  | none =>
    rw [hflaw] at h
    cases h
    have hconfig := Config.flaw?_eq_none_iff.mp hflaw
    refine ⟨rfl, ?_, rfl, ⟨hflaw, size_image .., ?_, Screen.wellFormed_standard,
      pixels_standard_lt, rfl, Decoder.coherent_empty⟩, rfl, rfl, rfl⟩
    · simp only [Machine.reset, size_image, clear_standard]
    · rw [size_image]
      exact Nat.le_of_lt hconfig.2.1

/-- The memory is as large as the configuration asks for. -/
theorem Fresh.size_memory {m : Machine} {config : Config} (h : m.Fresh config) :
    m.memory.size = config.memorySize := by
  rw [h.sound.size_memory, h.config_eq]

theorem sound_setTimer {m : Machine} (h : m.Sound) (value : UInt32) {store : Timer → Machine}
    (hstore : ∀ timer, (store timer).Sound) : (m.setTimer value store).state.Sound := by
  unfold setTimer
  cases Timer.set? value with
  | ok timer => exact hstore timer
  | error fault => exact h

theorem sound_setKey {m : Machine} (h : m.Sound) (key : UInt8) (down : Bool) :
    (m.setKey key down).state.Sound := by
  unfold setKey
  split
  · exact { h with }
  · exact h

theorem sound_poke {m : Machine} (h : m.Sound) (address : Nat) (bytes : Array UInt8) :
    (m.poke address bytes).state.Sound := by
  unfold poke
  split
  · exact h.of_sameFrame (m.sameFrame_writeBytes address bytes.toList)
      (m.writeBytes_hostedBy m address bytes.toList)
  · exact h

end Machine

namespace Operation

/-- What the host has to see to: bytes are written into memory, programs are as long as an array can
be, and a new screen has pixels, as many as an array can have. -/
def Legal (memorySize : Nat) : Operation → Prop
  | load program | loadAt program _ => program.size < Machine.arrayLimit
  | poke address bytes => address + bytes.size ≤ memorySize
  | replaceScreen height width => 0 < height ∧ 0 < width ∧ height * width < Machine.arrayLimit
  | _ => True

/-- An operation that does not replace the screen keeps a machine sound, whether it succeeds or
not. -/
theorem sound_apply_of_ne_replaceScreen {operation : Operation} {m : Machine} (h : m.Sound)
    (hscreen : ∀ height width, operation ≠ .replaceScreen height width) :
    (operation.apply m).state.Sound := by
  cases operation with
  | load program => exact h.loadAt program m.config.loadAddress
  | loadAt program origin => exact h.loadAt program origin
  | reset => exact h.reset
  | step => exact h.step
  | peek =>
    have hpeek := Machine.peek_eq h.decoder
    simp only [apply]
    rw [hpeek]
    cases m.nextOpcode with
    | none => exact h
    | some w => exact h.seeing w
  | execute i => exact h.execute i
  | setDelay value =>
    exact Machine.sound_setTimer h value fun _ =>
      { h with }
  | setSound value =>
    exact Machine.sound_setTimer h value fun _ =>
      { h with }
  | poke address bytes => exact Machine.sound_poke h address bytes
  | pop =>
    simp only [apply]
    split
    · exact { h with }
    · exact h
  | top =>
    simp only [apply]
    split <;> exact h
  | keyDown key => exact Machine.sound_setKey h key true
  | keyUp key => exact Machine.sound_setKey h key false
  | setPixel y x value =>
    have hshape := m.screen.sameShape_setPixel y x value
    exact h.of_sameFrame ⟨rfl, rfl, rfl, hshape⟩ rfl
  | replaceScreen height width => exact absurd rfl (hscreen height width)
  | takeDirty =>
    exact { h with screen := { h.screen with } }
  | _ =>
    exact { h with }

/-- Every operation keeps a machine sound. -/
theorem sound_apply {operation : Operation} {m : Machine} (h : m.Sound)
    (hlegal : operation.Legal m.memory.size) : (operation.apply m).state.Sound := by
  cases operation with
  | replaceScreen height width =>
    obtain ⟨hheight, hwidth, hpixels⟩ := hlegal
    exact { h with screen := Screen.wellFormed_dark hheight hwidth, pixels_lt := hpixels }
  | _ => exact sound_apply_of_ne_replaceScreen h (by simp)

/-- No operation changes the configuration. -/
theorem config_apply (operation : Operation) {m : Machine} (h : m.Sound) :
    (operation.apply m).state.config = m.config := by
  cases operation with
  | load program =>
    simp only [apply, Machine.load, Machine.loadAt]
    split <;> rfl
  | loadAt program origin =>
    simp only [apply, Machine.loadAt]
    split <;> rfl
  | step => exact h.config_step
  | peek =>
    have hpeek := Machine.peek_eq h.decoder
    simp only [apply]
    rw [hpeek]
    cases m.nextOpcode <;> rfl
  | execute i => exact (i.sameFrame_execute m).config
  | setDelay value =>
    simp only [apply, Machine.setTimer]
    split <;> rfl
  | setSound value =>
    simp only [apply, Machine.setTimer]
    split <;> rfl
  | poke address bytes =>
    simp only [apply, Machine.poke]
    split
    · exact (m.sameFrame_writeBytes address bytes.toList).config
    · rfl
  | pop =>
    simp only [apply]
    split <;> rfl
  | top =>
    simp only [apply]
    split <;> rfl
  | keyDown key =>
    simp only [apply, Machine.setKey]
    split <;> rfl
  | keyUp key =>
    simp only [apply, Machine.setKey]
    split <;> rfl
  | _ => rfl

theorem size_memory_apply {operation : Operation} {m : Machine} (h : m.Sound)
    (hlegal : operation.Legal m.memory.size) :
    (operation.apply m).state.memory.size = m.memory.size := by
  rw [(sound_apply h hlegal).size_memory, config_apply operation h, h.size_memory]

/-- What the host has to see to for a list of operations, after the first of them. -/
theorem legal_of_cons {operation : Operation} {operations : List Operation} {m : Machine}
    (h : m.Sound) (hlegal : ∀ other ∈ operation :: operations, other.Legal m.memory.size) :
    operation.Legal m.memory.size ∧
      ∀ other ∈ operations, other.Legal (operation.apply m).state.memory.size := by
  obtain ⟨hfirst, hrest⟩ := List.forall_mem_cons.mp hlegal
  rw [size_memory_apply h hfirst]
  exact ⟨hfirst, hrest⟩

theorem sound_run {operations : List Operation} {m : Machine} (h : m.Sound)
    (hlegal : ∀ operation ∈ operations, operation.Legal m.memory.size) :
    (run operations m).Sound ∧ (run operations m).config = m.config := by
  induction operations generalizing m with
  | nil => exact ⟨h, rfl⟩
  | cons operation operations ih =>
    obtain ⟨hfirst, hrest⟩ := legal_of_cons h hlegal
    obtain ⟨hsound, hconfig⟩ := ih (sound_apply h hfirst) hrest
    exact ⟨hsound, hconfig.trans (config_apply operation h)⟩

end Operation

namespace Machine

/-! ## Reachable machines -/

/-- The machines that a host gets from a configuration by operations. -/
inductive Reachable : Machine → Prop
  | new {config : Config} {entropy : Random.Key} {m : Machine}
      (h : Machine.new config entropy = .ok m) : Reachable m
  | apply {m : Machine} (operation : Operation) (h : Reachable m)
      (hlegal : operation.Legal m.memory.size) : Reachable (operation.apply m).state

theorem Reachable.sound {m : Machine} (h : m.Reachable) : m.Sound := by
  induction h with
  | new hnew => exact (fresh_of_new hnew).sound
  | apply operation hm hlegal ih => exact Operation.sound_apply ih hlegal

end Machine

end Chip8
