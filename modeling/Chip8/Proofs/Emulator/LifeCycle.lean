import Chip8.Proofs.Emulator.Pictures
import Chip8.Proofs.Machine.Inspection
import Chip8.Proofs.Machine.Refusals

/-!
# The life of an emulator

An emulator runs frames until its machine halts, a step fails or the escape key is pressed.  After that
a frontend may go on asking, and nothing happens any more.

* `Machine.Progress`: a number of steps that succeed.  The cycles of a frame are such steps, up to the
  end of the frame, the step that halts the machine or the step that fails (`Machine.Sound.cycled`).
* `Emulator.FrameEnds`: the two ways in which a frame ends, with all that it does to the emulator
  (`Emulator.frameEnds`).
* `Emulator.Living`: what requests keep (`Living.serve`).  An emulator that is over stays over
  (`Emulator.isOver_serveAll`), and the fault that has ended a run stays (`Living.fault_serveAll`).
-/

namespace Chip8

namespace Machine

/-! ## Cycles that succeed -/

/-- A number of steps take one machine to the other.  All of them succeed, and the machine has not
halted before any of them. -/
inductive Progress : Nat → Machine → Machine → Prop
  | refl (m : Machine) : Progress 0 m m
  | step {k : Nat} {m m' m'' : Machine} (hrunning : m.exitCode = none) (hstep : m.step = .done m' ())
      (h : Progress k m' m'') : Progress (k + 1) m m''

/-- What `n` cycles do to a machine: they go on to the last of them or to the step that halts the
machine, or they end with a step that fails. -/
inductive Cycled (n : Nat) (m : Machine) : Outcome Machine Failure Unit → Prop
  | completed {k : Nat} {m' : Machine} (hprogress : m.Progress k m')
      (hends : k = n ∨ k < n ∧ m'.exitCode ≠ none) : Cycled n m (.done m' ())
  | failed {k : Nat} {m' : Machine} {w : Opcode} {fault : Fault} (hprogress : m.Progress k m')
      (hk : k < n) (hrunning : m'.exitCode = none) (hopcode : m'.nextOpcode = some w)
      (hstep : m'.step = .refuse (m'.seeing w) fault) : Cycled n m (.refuse (m'.seeing w) fault)

/-- A step of a sound machine that fails is refused for a fault. -/
theorem Sound.step_of_error {m : Machine} (h : m.Sound) {failure : Failure}
    (hresult : m.step.result = .error failure) :
    ∃ w fault, m.nextOpcode = some w ∧ m.step = .refuse (m.seeing w) fault := by
  obtain ⟨w, hopcode, hstate⟩ := state_step_of_error h hresult
  cases failure with
  | outOfBounds => exact absurd rfl (h.step_ne_outOfBounds hresult)
  | fault fault =>
    refine ⟨w, fault, hopcode, ?_⟩
    rw [Outcome.refuse, ← hresult, ← hstate]

theorem Sound.cycled {m : Machine} (h : m.Sound) (inspect : Bool) (n : Nat) :
    m.Cycled n (m.cycles inspect n) := by
  induction n generalizing m with
  | zero => exact .completed (.refl m) (.inl rfl)
  | succ n ih =>
    cases hhalted : m.hasHalted with
    | true =>
      rw [Machine.cycles, Outcome.repeatUntil_of_stop (n + 1) hhalted]
      exact .completed (.refl m) (.inr ⟨Nat.succ_pos n, hasHalted_iff.mp hhalted⟩)
    | false =>
      have hrunning := hasHalted_eq_false_iff.mp hhalted
      rw [Machine.cycles, Outcome.repeatUntil_succ hhalted, cycle_eq_step hrunning h.executing]
      cases hresult : m.step.result with
      | error failure =>
        obtain ⟨w, fault, hopcode, hstep⟩ := h.step_of_error hresult
        rw [hstep] at hresult
        cases hresult
        rw [hstep]
        exact .failed (.refl m) (Nat.succ_pos n) hrunning hopcode hstep
      | ok answer =>
        have hstep : m.step = .done m.step.state () := Outcome.eq_done hresult
        show Cycled (n + 1) m (m.step.state.cycles inspect n)
        have hrest := ih h.step
        generalize m.step.state.cycles inspect n = outcome at hrest ⊢
        cases hrest with
        | completed hprogress hends =>
          refine .completed (.step hrunning hstep hprogress) ?_
          exact hends.imp (congrArg (· + 1)) (And.imp_left Nat.succ_lt_succ)
        | failed hprogress hk hrunning' hopcode hstep' =>
          exact .failed (.step hrunning hstep hprogress) (Nat.succ_lt_succ hk) hrunning' hopcode hstep'

/-- Cycles step the machines that steps reach without halting, no more of them than there are cycles. -/
theorem Sound.mem_visited_iff {m m' : Machine} (h : m.Sound) {inspect : Bool} {n : Nat} :
    m' ∈ Outcome.visited hasHalted (Machine.cycle inspect) n m ↔
      ∃ k < n, m.Progress k m' ∧ m'.exitCode = none := by
  induction n generalizing m with
  | zero => simp [Outcome.visited]
  | succ n ih =>
    cases hhalted : m.hasHalted with
    | true =>
      have hexit := hasHalted_iff.mp hhalted
      rw [Outcome.visited_of_stop (n + 1) hhalted]
      refine iff_of_false List.not_mem_nil ?_
      rintro ⟨_, -, hprogress, hrunning'⟩
      cases hprogress with
      | refl => exact hexit hrunning'
      | step hrunning => exact hexit hrunning
    | false =>
      have hrunning := hasHalted_eq_false_iff.mp hhalted
      rw [Outcome.visited_succ hhalted, cycle_eq_step hrunning h.executing, List.mem_cons]
      cases hresult : m.step.result with
      | error failure =>
        refine ⟨?_, ?_⟩
        · rintro (rfl | hmem)
          · exact ⟨0, Nat.succ_pos n, .refl m', hrunning⟩
          · cases hmem
        · rintro ⟨_, -, hprogress, -⟩
          cases hprogress with
          | refl => exact .inl rfl
          | step _ hstep =>
            rw [hstep] at hresult
            cases hresult
      | ok answer =>
        have hstep : m.step = .done m.step.state () := Outcome.eq_done hresult
        refine ⟨?_, ?_⟩
        · rintro (rfl | hmem)
          · exact ⟨0, Nat.succ_pos n, .refl m', hrunning⟩
          · obtain ⟨k, hk, hprogress, hrunning'⟩ := (ih h.step).mp hmem
            exact ⟨k + 1, Nat.succ_lt_succ hk, .step hrunning hstep hprogress, hrunning'⟩
        · rintro ⟨_, hk, hprogress, hrunning'⟩
          cases hprogress with
          | refl => exact .inl rfl
          | step _ hstep' hprogress =>
            obtain rfl : m.step.state = _ := congrArg Outcome.state hstep'
            exact .inr ((ih h.step).mpr ⟨_, Nat.lt_of_succ_lt_succ hk, hprogress, hrunning'⟩)

end Machine

namespace Emulator

/-! ## How a frame ends -/

/-- How a frame of an emulator ends, before the note of the screen is taken. -/
inductive FrameEnds (e : Emulator) : Emulator → Prop
  /-- All steps succeed, up to the last one of the frame or the one that halts the machine.  The timers
  are ticked once and the frame is counted. -/
  | completed {k : Nat} {m : Machine} (hprogress : e.machine.Progress k m)
      (hends : k = e.cyclesPerFrame ∨ k < e.cyclesPerFrame ∧ m.exitCode ≠ none) :
      FrameEnds e { e with
        machine := m.tick.1
        frames := e.frames + 1
        beeper := if m.tick.2 && e.settings.sound then e.beeper.beep else e.beeper }
  /-- A step fails.  The machine is the one that the steps before it have made, but for the opcode that
  the decoder has seen. -/
  | failed {k : Nat} {m : Machine} {w : Opcode} {fault : Fault} (hprogress : e.machine.Progress k m)
      (hk : k < e.cyclesPerFrame) (hrunning : m.exitCode = none) (hopcode : m.nextOpcode = some w)
      (hstep : m.step = .refuse (m.seeing w) fault) :
      FrameEnds e { e with machine := m.seeing w, fault := some fault, stopped := true }

theorem frameEnds {e : Emulator} (h : e.machine.Sound) : FrameEnds e e.framed := by
  have hcycled := h.cycled e.settings.debug e.cyclesPerFrame
  rw [framed, runFrame]
  generalize e.machine.cycles e.settings.debug e.cyclesPerFrame = outcome at hcycled ⊢
  cases hcycled with
  | completed hprogress hends => exact .completed hprogress hends
  | failed hprogress hk hrunning hopcode hstep =>
    exact .failed hprogress hk hrunning hopcode hstep

theorem fst_serve_of_isOver {e : Emulator} (hover : e.isOver = true) (buffer : FrameBuffer) :
    (e.serve (.update buffer)).1 = e := by
  rw [fst_serve_update, advance, if_pos hover]
  rfl

/-! ## Requests -/

/-- The requests of a frontend that shows a screen: updates with a buffer that has room for its picture,
and keys. -/
def Request.Fits (screen : Screen) : Request → Prop
  | frame => False
  | update buffer => 3 * screen.pixels.size ≤ buffer.size
  | move .. => True

/-- Whether the request is an update that completes a frame. -/
def Request.completes (e : Emulator) : Request → Bool
  | update _ => !e.isOver && e.runFrame.result.isOk
  | _ => false

/-- The number of frames that requests, one after the other, complete with updates. -/
def completedFrames : List Request → Emulator → Nat
  | [], _ => 0
  | request :: requests, e =>
    (if request.completes e then 1 else 0) + completedFrames requests (e.serve request).1

/-- What requests keep of an emulator whose screen had the shape of the one given. -/
structure Living (screen : Screen) (e : Emulator) : Prop where
  sound : e.machine.Sound
  shape : screen.SameShape e.machine.screen
  stopped : e.fault ≠ none → e.stopped = true

namespace Living

variable {screen : Screen} {e : Emulator}

theorem isOver_of_fault (h : Living screen e) (hfault : e.fault ≠ none) : e.isOver = true := by
  rw [isOver, h.stopped hfault, Bool.true_or]

theorem fault_eq_none (h : Living screen e) (hover : e.isOver = false) : e.fault = none := by
  refine Classical.byContradiction fun hfault => ?_
  rw [h.isOver_of_fault hfault] at hover
  cases hover

/-- A request that fits succeeds and keeps the emulator alive or over. -/
theorem serve (h : Living screen e) {request : Request} (hfits : request.Fits screen) :
    Living screen (e.serve request).1 ∧ (e.serve request).2.result = .ok () := by
  have hsound := sound_serve h.sound request
  have hshape := h.shape.trans (e.sameShape_serve request)
  cases request with
  | frame => exact hfits.elim
  | update buffer =>
    cases hover : e.isOver with
    | true =>
      have hupdate := update_of_isOver hover buffer
      simp only [Emulator.serve, hupdate, Outcome.done]
      exact ⟨h, trivial⟩
    | false =>
      have hroom : 3 * e.machine.screen.pixels.size ≤ buffer.size := by
        rw [h.shape.size_pixels]
        exact hfits
      obtain ⟨shown, hupdate⟩ := update_eq h.sound hover hroom
      have hstopped : e.framed.fault ≠ none → e.framed.stopped = true := by
        have hends := frameEnds h.sound
        generalize e.framed = f at hends
        cases hends with
        | completed => exact h.stopped
        | failed => exact fun _ => rfl
      simp only [Emulator.serve, hupdate, Outcome.done] at hsound hshape ⊢
      exact ⟨⟨hsound, hshape, hstopped⟩, trivial⟩
  | move key down =>
    refine ⟨⟨hsound, hshape, ?_⟩, rfl⟩
    show (e.handleKey key down).fault ≠ none → (e.handleKey key down).stopped = true
    unfold handleKey
    split
    · exact fun _ => rfl
    · split <;> exact h.stopped

end Living

theorem fault_handleKey (e : Emulator) (key : Key) (down : Bool) :
    (e.handleKey key down).fault = e.fault ∧ (e.handleKey key down).frames = e.frames ∧
      (e.handleKey key down).beeper = e.beeper := by
  unfold handleKey
  split
  · exact ⟨rfl, rfl, rfl⟩
  · split <;> exact ⟨rfl, rfl, rfl⟩

theorem isOver_handleKey {e : Emulator} (hover : e.isOver = true) (key : Key) (down : Bool) :
    (e.handleKey key down).isOver = true := by
  unfold handleKey
  split
  · rfl
  · split
    · rw [Machine.setKey]
      split <;> exact hover
    · exact hover

/-! ## Requests one after the other -/

section Requests

variable {screen : Screen} {e : Emulator}

theorem Living.serveAll (h : Living screen e) {requests : List Request}
    (hfits : ∀ request ∈ requests, request.Fits screen) :
    Living screen (serveAll requests e).1 ∧
      ∀ reply ∈ (Emulator.serveAll requests e).2, reply.result = .ok () := by
  induction requests generalizing e with
  | nil => exact ⟨h, by simp [Emulator.serveAll]⟩
  | cons request requests ih =>
    obtain ⟨hfirst, hrest⟩ := List.forall_mem_cons.mp hfits
    obtain ⟨hliving, hresult⟩ := h.serve hfirst
    obtain ⟨hliving', hresults⟩ := ih hliving hrest
    rw [serveAll_cons]
    exact ⟨hliving', List.forall_mem_cons.mpr ⟨hresult, hresults⟩⟩

theorem isOver_serve (hover : e.isOver = true) {request : Request} (hfits : request.Fits screen) :
    (e.serve request).1.isOver = true := by
  cases request with
  | frame => exact hfits.elim
  | update buffer =>
    rw [fst_serve_of_isOver hover]
    exact hover
  | move key down => exact isOver_handleKey hover key down

theorem isOver_serveAll (hover : e.isOver = true) {requests : List Request}
    (hfits : ∀ request ∈ requests, request.Fits screen) :
    (serveAll requests e).1.isOver = true := by
  induction requests generalizing e with
  | nil => exact hover
  | cons request requests ih =>
    obtain ⟨hfirst, hrest⟩ := List.forall_mem_cons.mp hfits
    exact ih (isOver_serve hover hfirst) hrest

/-- A fault that has ended a run stays. -/
theorem Living.fault_serve (h : Living screen e) {fault : Fault} (hfault : e.fault = some fault)
    {request : Request} (hfits : request.Fits screen) :
    (Emulator.serve e request).1.fault = some fault := by
  cases request with
  | frame => exact hfits.elim
  | update buffer =>
    rw [fst_serve_of_isOver (h.isOver_of_fault (by simp [hfault]))]
    exact hfault
  | move key down => exact (e.fault_handleKey key down).1.trans hfault

theorem Living.fault_serveAll (h : Living screen e) {fault : Fault} (hfault : e.fault = some fault)
    {requests : List Request} (hfits : ∀ request ∈ requests, request.Fits screen) :
    (Emulator.serveAll requests e).1.fault = some fault := by
  induction requests generalizing e with
  | nil => exact hfault
  | cons request requests ih =>
    obtain ⟨hfirst, hrest⟩ := List.forall_mem_cons.mp hfits
    exact ih (h.serve hfirst).1 (h.fault_serve hfault hfirst) hrest

/-- Frames are counted by the updates that complete them. -/
theorem Living.frames_serve (h : Living screen e) {request : Request}
    (hfits : request.Fits screen) :
    (e.serve request).1.frames = e.frames + if request.completes e then 1 else 0 := by
  cases request with
  | frame => exact hfits.elim
  | update buffer =>
    rw [fst_serve_update, Request.completes]
    cases hover : e.isOver with
    | true =>
      rw [advance, if_pos hover]
      rfl
    | false =>
      rw [advance_eq h.sound hover]
      show e.framed.frames = _
      rw [framed, runFrame]
      obtain ⟨m, (_ | _) | _⟩ := e.machine.cycles e.settings.debug e.cyclesPerFrame <;> rfl
  | move key down => exact (e.fault_handleKey key down).2.1

theorem Living.frames_serveAll (h : Living screen e) {requests : List Request}
    (hfits : ∀ request ∈ requests, request.Fits screen) :
    (Emulator.serveAll requests e).1.frames = e.frames + completedFrames requests e := by
  induction requests generalizing e with
  | nil => rfl
  | cons request requests ih =>
    obtain ⟨hfirst, hrest⟩ := List.forall_mem_cons.mp hfits
    rw [serveAll_cons, ih (h.serve hfirst).1 hrest, h.frames_serve hfirst, completedFrames,
      Nat.add_assoc]

end Requests

/-! ## The result -/

/-- The life of an emulator over a reachable machine, at any moment between two requests of a frontend.
All requests so far have succeeded, and the frames that the emulator counts are the updates that have
completed one.  An emulator that is over stays over, and no update does anything to it or to its buffer.
The fault that ends a run is set by an update, once, and an emulator that has one is over.  Keys set no
fault, count no frame and sound no beep.

An update of an emulator that is not over ends its frame in one of the two ways of `FrameEnds`, takes
the note of the screen, and does nothing else.  If a step fails, the machine is the one that the steps
before it have made, but for the note and for the opcode that the decoder has seen, and neither are the
timers ticked, nor is there a beep, nor is the frame counted.  If the machine halts part-way, the other
steps are left out, and the timers are ticked and the frame is counted all the same. -/
theorem life_cycle {m : Machine} (hm : m.Reachable) (settings : Settings) (beeper : Beeper)
    {requests : List Request} (hfits : ∀ request ∈ requests, request.Fits m.screen) :
    let start : Emulator := { machine := m, settings, beeper }
    let e := (serveAll requests start).1
    (∀ reply ∈ (serveAll requests start).2, reply.result = .ok ()) ∧
    e.frames = completedFrames requests start ∧
    (e.fault ≠ none → e.isOver = true) ∧
    (∀ more : List Request, (∀ request ∈ more, request.Fits m.screen) →
      (e.isOver = true → (serveAll more e).1.isOver = true) ∧
      ∀ fault, e.fault = some fault → (serveAll more e).1.fault = some fault) ∧
    (∀ key down, (e.handleKey key down).fault = e.fault ∧
      (e.handleKey key down).frames = e.frames ∧ (e.handleKey key down).beeper = e.beeper) ∧
    ∀ buffer : FrameBuffer, 3 * m.screen.pixels.size ≤ buffer.size →
      (e.isOver = true → update (e, buffer) = .done (e, buffer) ()) ∧
      (e.isOver = false → e.fault = none ∧ ∃ (f : Emulator) (shown : FrameBuffer), FrameEnds e f ∧
        update (e, buffer) =
          .done ({ f with machine := { f.machine with screen := f.machine.screen.clean } }, shown)
            ()) := by
  intro start e
  have hstart : Living m.screen start := ⟨hm.sound, .refl m.screen, fun hfault => absurd rfl hfault⟩
  obtain ⟨h, hreplies⟩ := hstart.serveAll hfits
  refine ⟨hreplies, ?_, h.isOver_of_fault, fun more hmore => ⟨fun hover => ?_, fun fault hfault => ?_⟩,
    e.fault_handleKey, fun buffer hroom => ⟨fun hover => ?_, fun hover => ⟨?_, ?_⟩⟩⟩
  · rw [hstart.frames_serveAll hfits, Nat.zero_add]
  · exact isOver_serveAll hover hmore
  · exact h.fault_serveAll hfault hmore
  · exact update_of_isOver hover buffer
  · exact h.fault_eq_none hover
  · have hsize : e.machine.screen.pixels.size = m.screen.pixels.size := h.shape.size_pixels
    obtain ⟨shown, hupdate⟩ := update_eq h.sound hover (hsize ▸ hroom)
    exact ⟨e.framed, shown, frameEnds h.sound, hupdate⟩

/-- A program that returns without a call.  The first update sets the fault and counts no frame, and a
second one, after a key has been pressed, does nothing any more. -/
theorem life_cycle_return :
    ∃ m : Machine, m.Reachable ∧
      let buffer : FrameBuffer := Array.replicate 6144 0
      let e := (serveAll [.update buffer, .move .w true] { machine := m, settings := {} }).1
      e.fault = some (.stackUnderflow "pop") ∧ e.frames = 0 ∧ e.isOver = true ∧
        update (e, buffer) = .done (e, buffer) () := by
  obtain ⟨ready, hreached, hrunning, hstack, hscreen, hopcode⟩ :=
    Machine.exists_loaded #[0x00, 0xEE] 0x00 0xEE (by decide) rfl rfl (by decide)
  have hstep : ready.step =
      .refuse (ready.seeing (.ofBytes 0x00 0xEE)) (.stackUnderflow "pop") := by
    refine hreached.sound.step_of_refuse hrunning hopcode
      (Opcode.decode_of_nibbles_eq (i := .ret) rfl) ?_
    simp only [Instruction.execute, CallStack.pop, hstack]
  let buffer : FrameBuffer := Array.replicate 6144 0
  have hroom : 3 * ready.screen.pixels.size ≤ buffer.size := by
    simp [buffer, hscreen, Screen.standard, Screen.dark, Screen.defaultHeight, Screen.defaultWidth]
  have hfits : ∀ request ∈ [Request.update buffer, .move .w true], request.Fits ready.screen :=
    List.forall_mem_cons.mpr ⟨hroom, by simp [Request.Fits]⟩
  let start : Emulator := { machine := ready, settings := {} }
  let e := (serveAll [.update buffer, .move .w true] start).1
  have hover : start.isOver = false := by simp [start, isOver, Machine.hasHalted, hrunning]
  obtain ⟨hfault, hframes⟩ : e.fault = some (.stackUnderflow "pop") ∧ e.frames = 0 := by
    obtain ⟨hfault, hframes, -⟩ := (start.serve (.update buffer)).1.fault_handleKey .w true
    have hstate := fst_serve_update start buffer
    rw [advance_eq hreached.sound hover, framed_of_step_refuse rfl hover hstep] at hstate
    exact ⟨hfault.trans (congrArg Emulator.fault hstate),
      hframes.trans (congrArg Emulator.frames hstate)⟩
  obtain ⟨-, -, hends, -, -, hupdates⟩ := life_cycle hreached {} {} hfits
  have hisOver : e.isOver = true := hends (by rw [show _ = e.fault from rfl, hfault]; simp)
  exact ⟨ready, hreached, hfault, hframes, hisOver, (hupdates buffer hroom).1 hisOver⟩

end Emulator

end Chip8
