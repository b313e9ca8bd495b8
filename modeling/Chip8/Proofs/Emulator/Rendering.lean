import Chip8.Proofs.Emulator.Frames
import Chip8.Proofs.Machine.Loading
import Chip8.Proofs.Screen.Picture

/-!
# The picture that a host shows

A host draws the picture only after frames in which the note of the screen was set.  This is as good as
drawing it after every frame, as long as nobody else takes the note or puts another screen in place.

* `Operation.KeepsNote`: the operations that a host may carry out in between.  Like the frames they
  keep the shape of the screen and set the note when they change it (`Operation.redrawn_apply`,
  `Machine.lasting_redrawn`).
* `Emulator.Action`: what a host does with an emulator and its buffer.
* `Emulator.Drawn`: the buffer shows the screen, or the note tells that it may not.  Every action keeps
  this (`Drawn.apply`, `Drawn.run`), and after an update the buffer shows the screen (`Drawn.update`).
-/

namespace Chip8

/-! ## Changes of the screen -/

/-- The screens have the same shape, and a change from one to the other is noted. -/
structure Screen.Redrawn (s s' : Screen) : Prop where
  shape : SameShape s s'
  noted : Noted s s'

namespace Screen.Redrawn

variable {s s' s'' : Screen}

theorem refl (s : Screen) : Redrawn s s := ⟨.refl s, .refl s⟩

theorem trans (h : Redrawn s s') (h' : Redrawn s' s'') : Redrawn s s'' :=
  ⟨h.shape.trans h'.shape, h.noted.trans h'.noted⟩

theorem clear (s : Screen) : Redrawn s s.clear := ⟨s.sameShape_clear, s.noted_clear⟩

end Screen.Redrawn

open Screen (Redrawn)

namespace Machine

theorem noted_execute (i : Instruction) (m : Machine) :
    Screen.Noted m.screen (i.execute m).state.screen := by
  cases i with
  | clearScreen => exact m.screen.noted_clear
  | ret =>
    simp only [Instruction.execute]
    split <;> exact .refl _
  | draw x y n =>
    have hplot := m.screen.noted_plot false
      (spriteDots (m.reg y).toNat (m.reg x).toNat (m.sprite n))
    simp only [Instruction.execute, draw]
    generalize m.screen.plot false _ = outcome at hplot ⊢
    obtain ⟨screen, _ | _⟩ := outcome <;> exact hplot
  | waitKey x =>
    simp only [Instruction.execute, awaitKey]
    split <;> exact .refl _
  | storeDecimal x =>
    simp only [Instruction.execute, writeBytes_eq]
    exact .refl _
  | storeRegs x =>
    simp only [Instruction.execute, passBlock_eq, writeBytes_eq]
    exact .refl _
  | loadRegs x =>
    simp only [Instruction.execute, passBlock_eq, readRegisters_eq]
    exact .refl _
  | _ => exact .refl _

theorem lasting_redrawn : Lasting fun m m' => Redrawn m.screen m'.screen where
  refl m := .refl m.screen
  trans h h' := h.trans h'
  execute i m := ⟨(i.sameFrame_execute m).screen, noted_execute i m⟩
  track m _ _ _ _ := .refl m.screen

theorem screen_setKey (m : Machine) (key : UInt8) (down : Bool) :
    (m.setKey key down).state.screen = m.screen := by
  unfold setKey
  split <;> rfl

theorem redrawn_loadAt (m : Machine) (program : Array UInt8) (origin : UInt16) :
    Redrawn m.screen (m.loadAt program origin).state.screen := by
  unfold loadAt
  split
  · exact .clear m.screen
  · exact .refl m.screen

/-- A new machine keeps its screen when a program is loaded. -/
theorem Fresh.sameShape_load {config : Config} {m : Machine} (h : m.Fresh config)
    (program : Array UInt8) : Screen.standard.SameShape (m.load program).state.screen := by
  have hloaded := (m.redrawn_loadAt program m.config.loadAddress).shape
  rwa [h.screen_eq] at hloaded

end Machine

namespace Operation

/-- The operations that neither take the note of the screen nor put another screen in place. -/
def KeepsNote : Operation → Prop
  | takeDirty | replaceScreen .. => False
  | _ => True

theorem redrawn_apply {operation : Operation} (h : operation.KeepsNote) (m : Machine) :
    Redrawn m.screen (operation.apply m).state.screen := by
  cases operation with
  | load program => exact m.redrawn_loadAt program m.config.loadAddress
  | loadAt program origin => exact m.redrawn_loadAt program origin
  | reset => exact .clear m.screen
  | step => exact Machine.lasting_redrawn.step m
  | peek => exact Machine.lasting_redrawn.peek m
  | execute i => exact Machine.lasting_redrawn.execute i m
  | setDelay value =>
    simp only [apply, Machine.setTimer]
    cases Timer.set? value <;> exact .refl m.screen
  | setSound value =>
    simp only [apply, Machine.setTimer]
    cases Timer.set? value <;> exact .refl m.screen
  | poke address bytes =>
    simp only [apply, Machine.poke]
    split
    · rw [Machine.writeBytes_eq]
      exact .refl m.screen
    · exact .refl m.screen
  | pop =>
    simp only [apply]
    split <;> exact .refl m.screen
  | top =>
    simp only [apply]
    split <;> exact .refl m.screen
  | keyDown key => exact (m.screen_setKey key true) ▸ .refl m.screen
  | keyUp key => exact (m.screen_setKey key false) ▸ .refl m.screen
  | setPixel y x value =>
    exact ⟨m.screen.sameShape_setPixel y x value, m.screen.noted_setPixel y x value⟩
  | replaceScreen height width => exact h.elim
  | takeDirty => exact h.elim
  | _ => exact .refl m.screen

end Operation

namespace Emulator

/-! ## What a host does -/

/-- What a host does with an emulator and the buffer of its picture. -/
inductive Action where
  /-- Runs a frame and draws the picture if the screen has changed. -/
  | update
  /-- Runs a frame without a picture. -/
  | frame
  /-- Moves a key of the keyboard. -/
  | move (key : Key) (down : Bool)
  /-- Carries out an operation on the machine. -/
  | operate (operation : Operation)

namespace Action

/-- Carries out an action. -/
def apply (action : Action) (state : Emulator × FrameBuffer) : Emulator × FrameBuffer :=
  let (e, buffer) := state
  match action with
  | update => (Emulator.update (e, buffer)).state
  | frame => (e.runFrame.state, buffer)
  | move key down => (e.handleKey key down, buffer)
  | operate operation => ({ e with machine := (operation.apply e.machine).state }, buffer)

/-- The emulator and the buffer after a list of actions. -/
def run (actions : List Action) (state : Emulator × FrameBuffer) : Emulator × FrameBuffer :=
  actions.foldl (fun state action => action.apply state) state

/-- Only an update takes the note of the screen. -/
def KeepsNote : Action → Prop
  | operate operation => operation.KeepsNote
  | _ => True

end Action

/-- A picture is drawn of the emulator, not by it. -/
theorem fst_update (state : Emulator × FrameBuffer) :
    (update state).state.1 = state.1.advance.state := by
  obtain ⟨e, buffer⟩ := state
  simp only [update]
  obtain ⟨e', _ | _ | _⟩ := e.advance <;> rfl

/-! ## The invariant -/

/-- The buffer shows the screen of the emulator, or the note of the screen tells that it may not.
Behind the picture it is as it was at the start. -/
structure Drawn (start : FrameBuffer) (e : Emulator) (buffer : FrameBuffer) : Prop where
  sound : e.machine.Sound
  shape : Screen.standard.SameShape e.machine.screen
  size : buffer.size = start.size
  shows : e.machine.screen.dirty = false → buffer.Shows e.machine.screen
  behind : ∀ place, 6144 ≤ place → buffer[place]? = start[place]?

theorem machine_handleKey (e : Emulator) (key : Key) (down : Bool) :
    (e.handleKey key down).machine = e.machine ∨
      ∃ slot, (e.handleKey key down).machine = (e.machine.setKey slot down).state := by
  unfold handleKey
  split
  · exact .inl rfl
  · split
    · exact .inr ⟨_, rfl⟩
    · exact .inl rfl

namespace Drawn

variable {start buffer : FrameBuffer} {e e' : Emulator}

theorem three_mul_size_pixels (h : Drawn start e buffer) :
    3 * e.machine.screen.pixels.size = 6144 := by
  rw [h.shape.size_pixels]
  simp [Screen.standard, Screen.dark, Screen.defaultHeight, Screen.defaultWidth]

/-- A change of the screen that is noted is no harm. -/
theorem redrawn (h : Drawn start e buffer) (hsound : e'.machine.Sound)
    (hredrawn : Redrawn e.machine.screen e'.machine.screen) : Drawn start e' buffer := by
  refine ⟨hsound, h.shape.trans hredrawn.shape, h.size, fun hclean => ?_, h.behind⟩
  obtain hsame | hdirty := hredrawn.noted
  · rw [hsame] at hclean ⊢
    exact h.shows hclean
  · rw [hdirty] at hclean
    cases hclean

theorem framed (h : Drawn start e buffer) : Drawn start e.framed buffer :=
  h.redrawn (sound_framed h.sound)
    (framed_related Machine.lasting_redrawn (fun m => .refl m.screen) e)

/-- The note may be taken when the buffer shows the screen. -/
theorem clean (h : Drawn start e buffer) (hshows : buffer.Shows e.machine.screen) :
    Drawn start { e with machine := { e.machine with screen := e.machine.screen.clean } } buffer :=
  { h with
    sound := { h.sound with screen := { h.sound.screen with } }
    shape := ⟨h.shape.height, h.shape.width, h.shape.size_pixels⟩
    shows := fun _ => hshows }

theorem render (h : Drawn start e buffer) (hstart : 6144 ≤ start.size) :
    Drawn start e (buffer.overlay 0 e.machine.screen.picture) ∧
      FrameBuffer.Shows (buffer.overlay 0 e.machine.screen.picture) e.machine.screen := by
  have hpixels := h.three_mul_size_pixels
  have hbuffer : 3 * e.machine.screen.pixels.size ≤ buffer.size := by
    rw [hpixels, h.size]
    exact hstart
  have hshows := Screen.shows_render hbuffer
  refine ⟨{ h with size := ?_, shows := fun _ => hshows, behind := fun place hplace => ?_ }, hshows⟩
  · rw [FrameBuffer.size_overlay, h.size]
  · rw [Screen.render_behind (by omega), h.behind place hplace]

/-- After an update that is not refused the buffer shows the screen, however the frame has ended. -/
theorem update (h : Drawn start e buffer) (hstart : 6144 ≤ start.size) (hover : e.isOver = false) :
    ∃ e' buffer', Emulator.update (e, buffer) = .done (e', buffer') () ∧ Drawn start e' buffer' ∧
      buffer'.Shows e'.machine.screen := by
  have hframed := h.framed
  have hpixels := hframed.three_mul_size_pixels
  simp only [Emulator.update, advance_eq h.sound hover]
  generalize e.framed = f at hframed hpixels
  cases hdirty : f.machine.screen.dirty with
  | false =>
    have hshows := hframed.shows hdirty
    simp only [takeDirty, hdirty, Outcome.done]
    exact ⟨_, _, rfl, hframed.clean hshows, hshows⟩
  | true =>
    obtain ⟨hdrawn, hshows⟩ := hframed.render hstart
    have hbuffer : 3 * f.machine.screen.clean.pixels.size ≤ buffer.size := by
      show 3 * f.machine.screen.pixels.size ≤ buffer.size
      rw [hpixels, hframed.size]
      exact hstart
    simp only [takeDirty, hdirty, Outcome.done, Screen.render_eq hbuffer, Outcome.within]
    exact ⟨_, _, rfl, hdrawn.clean hshows, hshows⟩

theorem apply (h : Drawn start e buffer) (hstart : 6144 ≤ start.size) {action : Action}
    (hkeeps : action.KeepsNote) :
    Drawn start (action.apply (e, buffer)).1 (action.apply (e, buffer)).2 := by
  cases action with
  | update =>
    simp only [Action.apply]
    cases hover : e.isOver with
    | true =>
      simp only [Emulator.update, advance, hover, if_true]
      exact h
    | false =>
      obtain ⟨e', buffer', hupdate, hdrawn, -⟩ := h.update hstart hover
      rw [hupdate]
      exact hdrawn
  | frame =>
    exact h.redrawn (sound_runFrame h.sound)
      (runFrame_related Machine.lasting_redrawn (fun m => .refl m.screen) e)
  | move key down =>
    obtain hsame | ⟨slot, hset⟩ := machine_handleKey e key down
    · exact h.redrawn (hsame ▸ h.sound) (hsame ▸ .refl e.machine.screen)
    · have hscreen := e.machine.screen_setKey slot down
      rw [← hset] at hscreen
      exact h.redrawn (hset ▸ Machine.sound_setKey h.sound slot down) (hscreen ▸ .refl _)
  | operate operation =>
    have hscreen (height width : Nat) : operation ≠ .replaceScreen height width := by
      rintro rfl
      exact hkeeps
    exact h.redrawn (Operation.sound_apply_of_ne_replaceScreen h.sound hscreen)
      (Operation.redrawn_apply hkeeps e.machine)

theorem run (h : Drawn start e buffer) (hstart : 6144 ≤ start.size) {actions : List Action}
    (hkeeps : ∀ action ∈ actions, action.KeepsNote) :
    Drawn start (Action.run actions (e, buffer)).1 (Action.run actions (e, buffer)).2 := by
  induction actions generalizing e buffer with
  | nil => exact h
  | cons action actions ih =>
    obtain ⟨hfirst, hrest⟩ := List.forall_mem_cons.mp hkeeps
    exact ih (h.apply hstart hfirst) hrest

/-- A new machine has a screen that nobody has seen yet. -/
theorem of_new {config : Config} {entropy : Random.Key}
    (hnew : Machine.new config entropy = .ok e.machine) (buffer : FrameBuffer) :
    Drawn buffer e buffer := by
  have hfresh := Machine.fresh_of_new hnew
  refine ⟨hfresh.sound, hfresh.screen_eq ▸ .refl Screen.standard, rfl, fun hclean => ?_,
    fun _ _ => rfl⟩
  rw [hfresh.screen_eq] at hclean
  cases hclean

end Drawn

/-! ## The result -/

/-- Whatever a host does with an emulator over a new machine, after every update that is not refused
the buffer begins with the picture of the screen: its bytes are the colours of the pixels from left to
right and top to bottom, and they are what drawing the screen into any other buffer writes.  Behind
the picture the buffer is as it was at the start. -/
theorem buffer_shows_screen {config : Config} {entropy : Random.Key} {e : Emulator}
    (hnew : Machine.new config entropy = .ok e.machine) {buffer : FrameBuffer}
    (hsize : 6144 ≤ buffer.size)
    {actions : List Action} (hkeeps : ∀ action ∈ actions, action.KeepsNote)
    (hover : (Action.run actions (e, buffer)).1.isOver = false) :
    ∃ e' shown, update (Action.run actions (e, buffer)) = .done (e', shown) () ∧
      (∀ y < 32, ∀ x < 64, ∃ lit, e'.machine.screen.pixel? y x = some lit ∧
        shown[3 * (64 * y + x)]? = some (Color.ofPixel lit).red ∧
        shown[3 * (64 * y + x) + 1]? = some (Color.ofPixel lit).green ∧
        shown[3 * (64 * y + x) + 2]? = some (Color.ofPixel lit).blue) ∧
      (∀ other : FrameBuffer, 6144 ≤ other.size → ∃ drawn,
        e'.machine.screen.render other = .done drawn () ∧
          ∀ place < 6144, shown[place]? = drawn[place]?) ∧
      ∀ place, 6144 ≤ place → shown[place]? = buffer[place]? := by
  have hrun := (Drawn.of_new hnew buffer).run hsize hkeeps
  obtain ⟨e', shown, hupdate, hdrawn, hshows⟩ := hrun.update hsize hover
  have hpixels := hdrawn.three_mul_size_pixels
  have hheight : e'.machine.screen.height = 32 := hdrawn.shape.height
  have hwidth : e'.machine.screen.width = 64 := hdrawn.shape.width
  refine ⟨e', shown, hupdate, fun y hy x hx => ?_, fun other hother => ?_, hdrawn.behind⟩
  · have hbyte (part : Nat) (hpart : part < 3) :
        ∃ lit, e'.machine.screen.pixel? y x = some lit ∧
          shown[3 * (64 * y + x) + part]? = (Color.ofPixel lit).bytes[part]? := by
      obtain ⟨lit, hlit, hpicture⟩ := Screen.getElem?_picture hdrawn.sound.screen
        (hheight ▸ hy) (hwidth ▸ hx) hpart
      rw [hwidth] at hpicture
      exact ⟨lit, hlit, (hshows _ (by omega)).trans hpicture⟩
    obtain ⟨lit, hlit, hred⟩ := hbyte 0 (by omega)
    obtain ⟨_, hgreen', hgreen⟩ := hbyte 1 (by omega)
    obtain ⟨_, hblue', hblue⟩ := hbyte 2 (by omega)
    rw [hlit] at hgreen' hblue'
    cases hgreen'
    cases hblue'
    exact ⟨lit, hlit, hred, hgreen, hblue⟩
  · have hother' : 3 * e'.machine.screen.pixels.size ≤ other.size := by omega
    refine ⟨_, Screen.render_eq hother', fun place hplace => ?_⟩
    rw [hshows place (by omega), Screen.shows_render hother' place (by omega)]

/-- A pixel that a host has set is in the picture of a frame that ends with a fault. -/
theorem buffer_shows_screen_of_fault :
    ∃ m, Machine.new {} (.replicate 8 0) = .ok m ∧
      let buffer : FrameBuffer := Array.replicate 6145 7
      let actions := [.operate (.load #[0x00, 0xEE]), .operate (.setPixel 31 63 1)]
      ∃ e shown, update (Action.run actions ({ machine := m, settings := {} }, buffer)) =
          .done (e, shown) () ∧
        e.fault = some (.stackUnderflow "pop") ∧ shown[6141]? = some 0x33 ∧
        shown[6142]? = some 0xFF ∧ shown[6143]? = some 0x66 ∧ shown[6144]? = some 7 := by
  obtain ⟨m, hnew⟩ : ∃ m, Machine.new {} (.replicate 8 0) = .ok m := ⟨_, rfl⟩
  refine ⟨m, hnew, ?_⟩
  intro buffer actions
  have hfresh := Machine.fresh_of_new hnew
  have hload : m.load #[0x00, 0xEE] = _ := hfresh.load (by decide)
  let lit := (Screen.standard.setPixel 31 63 1).state
  obtain ⟨ready, hbefore, hsound, hrunning, hscreen, hopcode, hstack⟩ : ∃ ready : Machine,
      Action.run actions ({ machine := m, settings := {} }, buffer) =
          ({ machine := ready, settings := {} }, buffer) ∧
        ready.Sound ∧ ready.exitCode = none ∧ ready.screen = lit ∧
        ready.nextOpcode = some (.ofBytes 0x00 0xEE) ∧ ready.stack.frames = [] := by
    have hloaded : (m.load #[0x00, 0xEE]).state.Sound := hfresh.sound.loadAt _ _
    refine ⟨_, rfl, Operation.sound_apply_of_ne_replaceScreen hloaded (by simp), ?_, ?_, ?_, ?_⟩
    · show (m.load #[0x00, 0xEE]).state.exitCode = none
      rw [hload]
      rfl
    · show ((m.load #[0x00, 0xEE]).state.screen.setPixel 31 63 1).state = lit
      have hclear : (m.load #[0x00, 0xEE]).state.screen = .standard := by
        rw [hload]
        exact (congrArg Screen.clear hfresh.screen_eq).trans Machine.clear_standard
      rw [hclear]
    · exact hfresh.nextOpcode_load (by decide) rfl rfl (by decide)
    · show (m.load #[0x00, 0xEE]).state.stack.frames = []
      rw [hload]
      rfl
  have hstep : ready.step =
      .refuse (ready.seeing (.ofBytes 0x00 0xEE)) (.stackUnderflow "pop") := by
    refine hsound.step_of_refuse hrunning hopcode (Opcode.decode_of_nibbles_eq (i := .ret) rfl) ?_
    simp only [Instruction.execute, CallStack.pop, hstack]
  have hover : ({ machine := ready, settings := {} } : Emulator).isOver = false := by
    simp [isOver, Machine.hasHalted, hrunning]
  have hframed := framed_of_step_refuse rfl hover hstep
  have hsize : 6144 ≤ buffer.size := by simp [buffer]
  have hkeeps : ∀ action ∈ actions, action.KeepsNote := by
    simp [actions, Action.KeepsNote, Operation.KeepsNote]
  obtain ⟨e, shown, hupdate, hpixels, -, hbehind⟩ :=
    buffer_shows_screen (e := { machine := m, settings := {} }) hnew hsize hkeeps (hbefore ▸ hover)
  have hstate := fst_update (Action.run actions ({ machine := m, settings := {} }, buffer))
  rw [hupdate, hbefore, advance_eq hsound hover, hframed] at hstate
  have hfault : e.fault = some (.stackUnderflow "pop") := congrArg Emulator.fault hstate
  have hshown : e.machine.screen = lit.clean :=
    (congrArg (·.machine.screen) hstate).trans (congrArg Screen.clean hscreen)
  obtain ⟨bit, hbit, hred, hgreen, hblue⟩ := hpixels 31 (by decide) 63 (by decide)
  have hlit : lit.clean.pixel? 31 63 = some true := by decide +kernel
  rw [hshown, hlit] at hbit
  cases hbit
  refine ⟨e, shown, hupdate, hfault, hred, hgreen, hblue, ?_⟩
  rw [hbehind 6144 (Nat.le_refl _)]
  simp [buffer]

end Emulator

end Chip8
