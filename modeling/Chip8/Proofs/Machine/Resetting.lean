import Chip8.Proofs.Machine.Loading
import Chip8.Proofs.Random.Transparency

/-!
# What a reset forgets

A reset leaves nothing of what has happened to a machine but the program that was loaded last, and what
belongs to the host: the keypad, the source of random bytes, the memory of the decoder and the size of
the screen.

* `Operation.lastLoad`: the last load that has succeeded.
* `Machine.Kept` and `Operation.kept_apply`: what all operations but such a load leave alone.
* `Machine.Holds` and `Operation.holds_run`: the machine remembers the last load.
* `Machine.restored` and `Machine.Holds.reset_eq`: the machine after a reset.
-/

namespace Chip8

/-- The screen has a pixel for each place. -/
def Screen.Filled (s : Screen) : Prop := s.pixels.size = s.height * s.width

theorem Screen.SameShape.filled {s s' : Screen} (h : s.SameShape s') (hs : s.Filled) :
    s'.Filled := by
  rw [Filled, h.size_pixels, h.height, h.width]
  exact hs

theorem Screen.clear_eq_dark {s : Screen} (h : s.Filled) : s.clear = dark s.height s.width := by
  rw [clear, dark, h]

namespace Operation

/-! ## Loads -/

/-- The program and the address of a load that succeeds. -/
def loaded? (operation : Operation) (m : Machine) : Option (Array UInt8 × UInt16) :=
  match operation with
  | load program =>
    ((load program).apply m).result.toOption.map fun _ => (program, m.config.loadAddress)
  | loadAt program origin =>
    ((loadAt program origin).apply m).result.toOption.map fun _ => (program, origin)
  | _ => none

/-- The program and the address of the last load that succeeds among operations that are carried out
one after the other, or those given if there is none. -/
def lastLoad (last : Array UInt8 × UInt16) : List Operation → Machine → Array UInt8 × UInt16
  | [], _ => last
  | operation :: operations, m =>
    lastLoad ((operation.loaded? m).getD last) operations (operation.apply m).state

theorem lastLoad_append (last : Array UInt8 × UInt16) (operations : List Operation)
    (operation : Operation) (m : Machine) :
    lastLoad last (operations ++ [operation]) m =
      (operation.loaded? (run operations m)).getD (lastLoad last operations m) := by
  induction operations generalizing last m with
  | nil => rfl
  | cons first operations ih => exact ih _ _

end Operation

namespace Machine

/-- A load succeeds exactly if the program fits, and otherwise changes nothing. -/
theorem loadAt_cases (m : Machine) (program : Array UInt8) (origin : UInt16) :
    (origin.toNat + program.size ≤ m.memory.size ∧
      m.loadAt program origin = .done ({ m with program, origin } : Machine).reset ()) ∨
    (m.memory.size < origin.toNat + program.size ∧
      m.loadAt program origin =
        .refuse m (.programTooLarge program.size origin m.memory.size)) := by
  obtain hfits | hlarge := Nat.lt_or_ge m.memory.size (origin.toNat + program.size)
  · exact .inr ⟨hfits, loadAt_of_lt hfits⟩
  · exact .inl ⟨hlarge, loadAt_of_le hlarge⟩

end Machine

namespace Operation

theorem loaded?_loadAt (program : Array UInt8) (origin : UInt16) (m : Machine) :
    (loadAt program origin).loaded? m =
      if origin.toNat + program.size ≤ m.memory.size then some (program, origin) else none := by
  obtain ⟨hfits, hload⟩ | ⟨hlarge, hload⟩ := m.loadAt_cases program origin
  · simp only [loaded?, apply, hload, if_pos hfits]
    rfl
  · simp only [loaded?, apply, hload, if_neg (Nat.not_le.mpr hlarge)]
    rfl

/-- A load that succeeds resets the machine. -/
theorem apply_of_loaded {operation : Operation} {m : Machine} {program : Array UInt8}
    {origin : UInt16} (h : operation.loaded? m = some (program, origin)) :
    origin.toNat + program.size ≤ m.memory.size ∧
      (operation.apply m).state = ({ m with program, origin } : Machine).reset := by
  have hloadAt {program' : Array UInt8} {origin' : UInt16}
      (h : (loadAt program' origin').loaded? m = some (program, origin)) :
      origin.toNat + program.size ≤ m.memory.size ∧
        ((loadAt program' origin').apply m).state =
          ({ m with program, origin } : Machine).reset := by
    rw [loaded?_loadAt] at h
    split at h
    · rename_i hfits
      cases h
      refine ⟨hfits, ?_⟩
      simp only [apply, Machine.loadAt_of_le hfits]
      rfl
    · cases h
  cases operation with
  | load program' => exact hloadAt h
  | loadAt program' origin' => exact hloadAt h
  | _ => cases h

end Operation

namespace Machine

/-! ## What other operations leave alone -/

/-- The machines agree in what only loads change, and the screen has a pixel for each place still. -/
structure Kept (m m' : Machine) : Prop where
  config : m'.config = m.config
  size_memory : m'.memory.size = m.memory.size
  program : m'.program = m.program
  origin : m'.origin = m.origin
  screen : m.screen.Filled → m'.screen.Filled

theorem Kept.refl (m : Machine) : Kept m m := ⟨rfl, rfl, rfl, rfl, id⟩

theorem Kept.trans {m m' m'' : Machine} (h : Kept m m') (h' : Kept m' m'') : Kept m m'' :=
  ⟨h'.config.trans h.config, h'.size_memory.trans h.size_memory, h'.program.trans h.program,
    h'.origin.trans h.origin, h'.screen ∘ h.screen⟩

theorem lasting_kept : Lasting Kept where
  refl := .refl
  trans := .trans
  execute i m := by
    have hframe := i.sameFrame_execute m
    have hhost := i.state_execute_eq m
    refine ⟨hframe.config, hframe.size_memory, ?_, ?_, hframe.screen.filled⟩
    · rw [hhost]
      rfl
    · rw [hhost]
      rfl
  track _ _ _ _ _ := ⟨rfl, rfl, rfl, rfl, id⟩

theorem kept_reset (m : Machine) : Kept m m.reset :=
  ⟨rfl, size_image .., rfl, rfl, m.screen.sameShape_clear.filled⟩

theorem kept_setKey (m : Machine) (key : UInt8) (down : Bool) :
    Kept m (m.setKey key down).state := by
  unfold setKey
  split
  · exact ⟨rfl, rfl, rfl, rfl, id⟩
  · exact .refl m

end Machine

namespace Operation

open Machine (Kept)

/-- Only a load that succeeds changes what machines remember of loads. -/
theorem kept_apply {operation : Operation} {m : Machine} (h : operation.loaded? m = none) :
    Kept m (operation.apply m).state := by
  have hloadAt {program : Array UInt8} {origin : UInt16}
      (h : (loadAt program origin).loaded? m = none) :
      Kept m ((loadAt program origin).apply m).state := by
    rw [loaded?_loadAt] at h
    split at h
    · cases h
    · rename_i hlarge
      simp only [apply, Machine.loadAt_of_lt (Nat.not_le.mp hlarge)]
      exact .refl m
  cases operation with
  | load program => exact hloadAt h
  | loadAt program origin => exact hloadAt h
  | reset => exact m.kept_reset
  | step => exact Machine.lasting_kept.step m
  | peek => exact Machine.lasting_kept.peek m
  | execute i => exact Machine.lasting_kept.execute i m
  | setDelay value =>
    simp only [apply, Machine.setTimer]
    cases Timer.set? value <;> exact ⟨rfl, rfl, rfl, rfl, id⟩
  | setSound value =>
    simp only [apply, Machine.setTimer]
    cases Timer.set? value <;> exact ⟨rfl, rfl, rfl, rfl, id⟩
  | poke address bytes =>
    have hframe := m.sameFrame_writeBytes address bytes.toList
    simp only [apply, Machine.poke]
    split
    · rw [Machine.writeBytes_eq] at hframe ⊢
      exact ⟨rfl, hframe.size_memory, rfl, rfl, id⟩
    · exact .refl m
  | pop =>
    simp only [apply]
    split <;> exact ⟨rfl, rfl, rfl, rfl, id⟩
  | top =>
    simp only [apply]
    split <;> exact .refl m
  | keyDown key => exact m.kept_setKey key true
  | keyUp key => exact m.kept_setKey key false
  | setPixel y x value =>
    exact ⟨rfl, rfl, rfl, rfl, (m.screen.sameShape_setPixel y x value).filled⟩
  | replaceScreen height width =>
    refine ⟨rfl, rfl, rfl, rfl, fun _ => ?_⟩
    simp [apply, Outcome.done, Screen.Filled, Screen.dark]
  | _ => exact ⟨rfl, rfl, rfl, rfl, id⟩

end Operation

namespace Machine

/-! ## What a machine remembers -/

/-- The machine was made with `config` and has a program at `origin` to be restored by a reset. -/
structure Holds (m : Machine) (config : Config) (program : Array UInt8) (origin : UInt16) : Prop where
  config_eq : m.config = config
  size_memory : m.memory.size = config.memorySize
  program_eq : m.program = program
  origin_eq : m.origin = origin
  fits : origin.toNat + program.size ≤ config.memorySize
  screen : m.screen.Filled
  decoder : m.decoder.Coherent

/-- A new machine has an empty program to restore. -/
theorem Fresh.holds {m : Machine} {config : Config} (h : m.Fresh config) :
    m.Holds config #[] config.loadAddress where
  config_eq := h.config_eq
  size_memory := h.sound.size_memory.trans (congrArg Config.memorySize h.config_eq)
  program_eq := h.program_eq
  origin_eq := h.origin_eq
  fits := by
    have hfits := h.sound.program_fits
    rwa [h.program_eq, h.origin_eq, h.sound.size_memory, h.config_eq] at hfits
  screen := h.sound.screen.size_pixels
  decoder := h.sound.decoder

/-- The machine after a load of `program` at `origin`, with what belongs to the host as in `host`. -/
def restored (config : Config) (program : Array UInt8) (origin : UInt16) (host : Machine) :
    Machine where
  config := config
  memory := image config.memorySize program origin.toNat
  v := .zero
  i := 0
  pc := origin
  stack := {}
  screen := .dark host.screen.height host.screen.width
  keypad := host.keypad
  delay := {}
  sound := {}
  blocked := false
  exitCode := none
  random := host.random
  decoder := host.decoder
  program := program
  origin := origin
  executing := false

namespace Holds

variable {m : Machine} {config : Config} {program : Array UInt8} {origin : UInt16}

theorem kept (h : m.Holds config program origin) {m' : Machine} (hkept : Kept m m')
    (hdecoder : m'.decoder.Coherent) : m'.Holds config program origin :=
  ⟨hkept.config.trans h.config_eq, hkept.size_memory.trans h.size_memory,
    hkept.program.trans h.program_eq, hkept.origin.trans h.origin_eq, h.fits, hkept.screen h.screen,
    hdecoder⟩

/-- The machine may be given another program that fits. -/
theorem set (h : m.Holds config program origin) {program' : Array UInt8} {origin' : UInt16}
    (hfits : origin'.toNat + program'.size ≤ config.memorySize) :
    ({ m with program := program', origin := origin' } : Machine).Holds config program' origin' :=
  { h with program_eq := rfl, origin_eq := rfl, fits := hfits }

theorem reset_eq (h : m.Holds config program origin) : m.reset = restored config program origin m := by
  rw [reset, restored, h.size_memory, h.program_eq, h.origin_eq, h.config_eq,
    Screen.clear_eq_dark h.screen]

theorem reset (h : m.Holds config program origin) : m.reset.Holds config program origin :=
  h.kept m.kept_reset h.decoder

/-- A program that fits replaces the one that is to be restored. -/
theorem loadAt (h : m.Holds config program origin) {program' : Array UInt8} {origin' : UInt16}
    (hfits : origin'.toNat + program'.size ≤ config.memorySize) :
    m.loadAt program' origin' = .done (restored config program' origin' m) () := by
  rw [loadAt_of_le (h.size_memory ▸ hfits), (h.set hfits).reset_eq]
  rfl

end Holds

end Machine

namespace Operation

open Machine (Holds)

variable {m : Machine} {config : Config} {program : Array UInt8} {origin : UInt16}

theorem holds_apply {operation : Operation} (h : m.Holds config program origin) :
    (operation.apply m).state.Holds config ((operation.loaded? m).getD (program, origin)).1
      ((operation.loaded? m).getD (program, origin)).2 := by
  cases hloaded : operation.loaded? m with
  | none => exact h.kept (kept_apply hloaded) (operation.coherent_apply h.decoder)
  | some loaded =>
    obtain ⟨program', origin'⟩ := loaded
    obtain ⟨hfits, hstate⟩ := apply_of_loaded hloaded
    rw [hstate]
    exact (h.set (h.size_memory ▸ hfits)).reset

/-- However a machine has come about, a reset will restore the last load that has succeeded. -/
theorem holds_run (operations : List Operation) (h : m.Holds config program origin) :
    (run operations m).Holds config (lastLoad (program, origin) operations m).1
      (lastLoad (program, origin) operations m).2 := by
  induction operations generalizing m program origin with
  | nil => exact h
  | cons operation operations ih => exact ih (holds_apply h)

end Operation

namespace Machine

/-- Only what belongs to the host makes a difference between machines that have been restored. -/
theorem restored_congr {config : Config} {program : Array UInt8} {origin : UInt16}
    {host host' : Machine} (hkeypad : host'.keypad = host.keypad)
    (hheight : host'.screen.height = host.screen.height)
    (hwidth : host'.screen.width = host.screen.width) :
    restored config program origin host' =
      ((restored config program origin host).withRandom host'.random).withDecoder host'.decoder := by
  rw [restored, hkeypad, hheight, hwidth]
  rfl

/-- Operations on restored machines that agree in the keypad and the size of the screen. -/
theorem run_restored {config : Config} {program : Array UInt8} {origin : UInt16}
    {host host' : Machine} (hkeypad : host'.keypad = host.keypad)
    (hheight : host'.screen.height = host.screen.height)
    (hwidth : host'.screen.width = host.screen.width) (hdecoder : host.decoder.Coherent)
    (hdecoder' : host'.decoder.Coherent) {operations : List Operation}
    (hdraws : Operation.DrawsNothing operations (restored config program origin host)) :
    let m := restored config program origin host
    let m' := restored config program origin host'
    Operation.answers operations m' = Operation.answers operations m ∧
      Operation.run operations m' =
        { Operation.run operations m with
          random := (Operation.run operations m').random
          decoder := (Operation.run operations m').decoder } := by
  intro m m'
  obtain ⟨hrun, hanswers⟩ := Operation.run_withRandom hdraws host'.random
  obtain ⟨d, -, hrun', hanswers'⟩ := Operation.run_withDecoder operations
    (m := m.withRandom host'.random) (d := host'.decoder) hdecoder hdecoder'
  have hm' : m' = (m.withRandom host'.random).withDecoder host'.decoder :=
    restored_congr hkeypad hheight hwidth
  rw [hm', hrun', hanswers', hrun]
  exact ⟨hanswers, rfl⟩

/-! ## The result -/

/-- However a machine has come about, a load fails exactly if the program does not fit and then changes
nothing, and a reset makes the machine what a load of the last program that was loaded makes a new
machine, but for what belongs to the host.  Nothing that is done afterwards can tell the two apart,
as long as these agree in the keypad and the size of the screen and no random byte is drawn. -/
theorem reset_forgets_history {config : Config} {entropy : Random.Key} {m₀ : Machine}
    (hnew : Machine.new config entropy = .ok m₀) (past : List Operation) :
    let m := Operation.run past m₀
    let last := Operation.lastLoad (#[], config.loadAddress) past m₀
    (∀ program origin,
      ((∃ failure, (m.loadAt program origin).result = .error failure) ↔
        config.memorySize < origin.toNat + program.size) ∧
      (config.memorySize < origin.toNat + program.size →
        m.loadAt program origin =
          .refuse m (.programTooLarge program.size origin config.memorySize) ∧
        Operation.lastLoad (#[], config.loadAddress) (past ++ [.loadAt program origin]) m₀ = last)) ∧
    m.reset = restored config last.1 last.2 m ∧
    m₀.loadAt last.1 last.2 = .done (restored config last.1 last.2 m₀) () ∧
    (∀ address < config.memorySize, m.reset.memory[address]? =
      some (if last.2.toNat ≤ address ∧ address < last.2.toNat + last.1.size then
          last.1.getD (address - last.2.toNat) 0
        else if address < 80 then Font.bytes.getD address 0
        else 0)) ∧
    (∀ lit ∈ m.reset.screen.pixels, lit = false) ∧ m.reset.screen.dirty = true ∧
    m.reset.reset = m.reset ∧
    ∀ (random : Random) (setup operations : List Operation),
      let twin := ((Operation.run setup { m₀ with random }).loadAt last.1 last.2).state
      twin.keypad = m.keypad → twin.screen.height = m.screen.height →
        twin.screen.width = m.screen.width → Operation.DrawsNothing operations m.reset →
          Operation.answers operations twin = Operation.answers operations m.reset ∧
          Operation.run operations twin =
            { Operation.run operations m.reset with
              random := (Operation.run operations twin).random
              decoder := (Operation.run operations twin).decoder } := by
  intro m last
  have hfresh := (fresh_of_new hnew).holds
  have hm : m.Holds config last.1 last.2 := Operation.holds_run past hfresh
  refine ⟨fun program origin => ⟨?_, fun hlarge => ⟨?_, ?_⟩⟩, hm.reset_eq, hfresh.loadAt hm.fits,
    fun address haddress => ?_, ?_, ?_, ?_, fun random setup operations => ?_⟩
  · obtain ⟨hfits, hload⟩ | ⟨hlarge, hload⟩ := m.loadAt_cases program origin
    · rw [hm.size_memory] at hfits
      exact iff_of_false (by simp [hload, Outcome.done]) (Nat.not_lt.mpr hfits)
    · rw [hm.size_memory] at hlarge
      exact iff_of_true ⟨_, by rw [hload]; rfl⟩ hlarge
  · rw [← hm.size_memory] at hlarge ⊢
    exact loadAt_of_lt hlarge
  · rw [Operation.lastLoad_append, Operation.loaded?_loadAt, if_neg]
    · rfl
    · show ¬ origin.toNat + program.size ≤ m.memory.size
      rw [hm.size_memory]
      exact Nat.not_le.mpr hlarge
  · rw [hm.reset_eq, restored, getElem?_image _ _ haddress, ← getD_font]
  · rw [hm.reset_eq]
    simp [restored, Screen.dark]
  · rw [hm.reset_eq]
    rfl
  · rw [hm.reset.reset_eq, hm.reset_eq]
    rfl
  · let made : Machine := { m₀ with random }
    have hmade : made.Holds config #[] config.loadAddress := { hfresh with }
    have hhost := Operation.holds_run setup hmade
    intro twin
    have htwin : twin = restored config last.1 last.2 (Operation.run setup made) :=
      congrArg Outcome.state (hhost.loadAt hm.fits)
    rw [htwin, hm.reset_eq]
    exact fun hkeypad hheight hwidth hdraws =>
      run_restored hkeypad hheight hwidth hm.decoder hhost.decoder hdraws

/-- A program that a host has written over, and then failed to replace, is back after a reset and does
what it does on a new machine. -/
theorem reset_forgets_history_written_over :
    ∃ m₀, Machine.new { memorySize := 96, loadAddress := 80 } (.replicate 8 0) = .ok m₀ ∧
      let m := Operation.run [.load #[0x60, 0x07], .poke 80 #[0x61, 0x08], .setRegister 3 9,
        .loadAt #[1, 2, 3] 94] m₀
      let twin := (m₀.loadAt #[0x60, 0x07] 80).state
      m.reset.memory[80]? = some 0x60 ∧ m.reset.memory[81]? = some 0x07 ∧ m.reset.pc = 80 ∧
        Operation.answers [.step] twin = Operation.answers [.step] m.reset := by
  obtain ⟨past, hpast, m₀, hnew, hlast, hkeypad, hheight, hwidth⟩ :
      ∃ past : List Operation, past = [.load #[0x60, 0x07], .poke 80 #[0x61, 0x08],
        .setRegister 3 9, .loadAt #[1, 2, 3] 94] ∧
      ∃ m₀, Machine.new { memorySize := 96, loadAddress := 80 } (.replicate 8 0) = .ok m₀ ∧
        Operation.lastLoad (#[], 80) past m₀ = (#[0x60, 0x07], 80) ∧
        (m₀.loadAt #[0x60, 0x07] 80).state.keypad = (Operation.run past m₀).keypad ∧
        (m₀.loadAt #[0x60, 0x07] 80).state.screen.height = (Operation.run past m₀).screen.height ∧
        (m₀.loadAt #[0x60, 0x07] 80).state.screen.width = (Operation.run past m₀).screen.width :=
    ⟨_, rfl, _, rfl, by decide +kernel, by decide +kernel, by decide +kernel, by decide +kernel⟩
  obtain ⟨-, hreset, -, hmemory, -, -, -, hrest⟩ := reset_forgets_history hnew past
  dsimp only at hreset hmemory hrest
  rw [hlast] at hreset hmemory hrest
  have hhigh : (Operation.run past m₀).reset.memory[80]? = some 0x60 := hmemory 80 (by decide)
  have hlow : (Operation.run past m₀).reset.memory[81]? = some 0x07 := hmemory 81 (by decide)
  have hpc : (Operation.run past m₀).reset.pc = 80 := congrArg Machine.pc hreset
  refine ⟨m₀, hnew, ?_⟩
  rw [← hpast]
  refine ⟨hhigh, hlow, hpc, ?_⟩
  have hdecoder : (Operation.run past m₀).reset.decoder.Coherent :=
    (Operation.holds_run past (fresh_of_new hnew).holds).decoder
  have hopcode : (Operation.run past m₀).reset.nextOpcode = some (.ofBytes 0x60 0x07) :=
    nextOpcode_eq_some_iff.mpr ⟨_, _, hpc ▸ hhigh, hpc ▸ hlow, rfl, by decide⟩
  have hdraws : ¬ (Operation.run past m₀).reset.Draws := by
    rw [draws_iff hdecoder]
    rintro ⟨-, -, w, x, byte, hnext, hdecode⟩
    obtain rfl := Option.some.inj (hopcode.symm.trans hnext)
    have hload : (Opcode.ofBytes 0x60 0x07).decode = .ok (.loadByte 0 7) :=
      Opcode.decode_of_nibbles_eq rfl
    rw [hload] at hdecode
    cases hdecode
  exact (hrest m₀.random [] [.step] hkeypad hheight hwidth ⟨hdraws, trivial⟩).1

end Machine

end Chip8
