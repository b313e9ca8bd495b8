import Chip8.Proofs.Emulator.Requests
import Chip8.Proofs.Machine.Inspection

/-!
# Looking at instructions before they are run

An emulator whose settings ask for it looks at every instruction before it runs it and tells of it in
the journal.  It does nothing else than an emulator that does not look: its machine ends every frame as
it would without the looks, down to what the decoder remembers.

* `Emulator.runFrame_withDebug` and `Emulator.advance_withDebug`: frames.
* `Emulator.serve_withDebug`: everything that a frontend can ask for.
* `Emulator.filter_events`: the events of a request, apart from those that tell of a look.
-/

namespace Chip8

open Journal (Event)

namespace Emulator

/-- The emulator that looks at instructions, or does not, as told. -/
def withDebug (e : Emulator) (debug : Bool) : Emulator :=
  { e with settings := { e.settings with debug } }

section Looking

variable {e : Emulator} (h : e.machine.Sound) (debug : Bool)

include h

/-! ## Frames -/

theorem runFrame_eq :
    e.runFrame =
      match e.machine.steps e.cyclesPerFrame with
      | ⟨machine, .ok ()⟩ => .done { e with machine }.finishFrame ()
      | ⟨machine, .error failure⟩ => .fail { e with machine } failure := by
  have hcycles := h.cycles_eq_steps e.settings.debug e.cyclesPerFrame
  cases hsteps : e.machine.steps e.cyclesPerFrame with
  | mk machine result =>
    rw [hsteps] at hcycles
    cases result <;> simp only [runFrame, hcycles]

theorem runFrame_withDebug :
    (e.withDebug debug).runFrame = e.runFrame.within (·.withDebug debug) := by
  have hmachine : (e.withDebug debug).machine = e.machine := rfl
  have hcycles : (e.withDebug debug).cyclesPerFrame = e.cyclesPerFrame := rfl
  rw [runFrame_eq h, runFrame_eq (e := e.withDebug debug) h, hmachine, hcycles]
  obtain ⟨m, _ | _⟩ := e.machine.steps e.cyclesPerFrame <;> rfl

theorem advance_withDebug :
    (e.withDebug debug).advance = e.advance.within (·.withDebug debug) := by
  have hover : (e.withDebug debug).isOver = e.isOver := rfl
  rw [advance, advance, hover, runFrame_withDebug h]
  split
  · rfl
  · obtain ⟨e', (_ | _) | _⟩ := e.runFrame <;> rfl

theorem update_withDebug (buffer : FrameBuffer) :
    update (e.withDebug debug, buffer) =
      (update (e, buffer)).within fun (e, buffer) => (e.withDebug debug, buffer) := by
  simp only [update, advance_withDebug h]
  obtain ⟨e', _ | _ | _⟩ := e.advance <;> rfl

/-! ## Requests -/

omit h in
theorem handleKey_withDebug (key : Key) (down : Bool) :
    (e.withDebug debug).handleKey key down = (e.handleKey key down).withDebug debug := by
  unfold handleKey
  split
  · rfl
  · cases key.keypad? <;> rfl

theorem serve_withDebug (request : Request) :
    (e.withDebug debug).serve request =
      ((e.serve request).1.withDebug debug, (e.serve request).2) := by
  cases request with
  | frame => simp only [serve, runFrame_withDebug h, Outcome.within]
  | update buffer => simp only [serve, update_withDebug h, Outcome.within]
  | move key down => simp only [serve, handleKey_withDebug]

theorem serveAll_withDebug (requests : List Request) :
    serveAll requests (e.withDebug debug) =
      ((serveAll requests e).1.withDebug debug, (serveAll requests e).2) := by
  induction requests generalizing e with
  | nil => rfl
  | cons request requests ih =>
    rw [serveAll_cons, serveAll_cons, serve_withDebug h, ih (sound_serve h request)]

/-! ## The journal -/

/-- What a frame tells, apart from looks, it tells without them too. -/
theorem filter_frameEvents :
    e.frameEvents.filter (!·.tellsLook) = (e.withDebug false).frameEvents := by
  have hmachine : (e.withDebug false).machine = e.machine := rfl
  have hcycles : (e.withDebug false).cyclesPerFrame = e.cyclesPerFrame := rfl
  have hdebug : (e.withDebug false).settings.debug = false := rfl
  have hbeep (e : Emulator) : e.beepEvents.filter (!·.tellsLook) = e.beepEvents := by
    unfold beepEvents
    split <;> rfl
  rw [frameEvents, frameEvents, List.filter_append, Machine.filter_cyclesEvents h, hmachine, hcycles,
    hdebug, h.cycles_eq_steps, h.cycles_eq_steps]
  obtain ⟨m, _ | _⟩ := e.machine.steps e.cyclesPerFrame
  · rfl
  · exact congrArg _ (hbeep { e with machine := m })

theorem filter_advanceEvents :
    e.advanceEvents.filter (!·.tellsLook) = (e.withDebug false).advanceEvents := by
  have hover : (e.withDebug false).isOver = e.isOver := rfl
  rw [advanceEvents, advanceEvents, hover, runFrame_withDebug h]
  split
  · rfl
  · rw [List.filter_append, filter_frameEvents h]
    obtain ⟨e', (_ | _) | _⟩ := e.runFrame <;> rfl

theorem filter_events (request : Request) :
    (request.events e).filter (!·.tellsLook) = request.events (e.withDebug false) := by
  cases request with
  | frame => exact filter_frameEvents h
  | update buffer => exact filter_advanceEvents h
  | move key down => rfl

theorem filter_journal (requests : List Request) :
    (Request.journal requests e).filter (!·.tellsLook) =
      Request.journal requests (e.withDebug false) := by
  induction requests generalizing e with
  | nil => rfl
  | cons request requests ih =>
    rw [Request.journal, Request.journal, List.filter_append, filter_events h,
      ih (sound_serve h request), serve_withDebug h]

end Looking

/-! ## The result -/

/-- Looking at every instruction before it is run does nothing but tell of it.  Two emulators over a
reachable machine whose settings differ in this alone give the same replies to all requests of a
frontend and stay the same but for this setting, and their journals differ in nothing but what tells of
a look.

This rests on what a look ahead tells of a machine that has not halted.  It finds the end of the program
exactly if the step halts, fails exactly if the step fails to decode, with the same fault, and otherwise
shows the instruction that the step executes.  No step shows whether instructions were looked at before
it, any number of times, or before the steps that led up to it; and with whatever other operations a
host mixes looks, they show in nothing but what the decoder remembers. -/
theorem debug_only_observes {e : Emulator} (hm : e.machine.Reachable) (debug : Bool) :
    (∀ requests : List Request,
      serveAll requests (e.withDebug debug) =
        ((serveAll requests e).1.withDebug debug, (serveAll requests e).2) ∧
      (Request.journal requests (e.withDebug debug)).filter (!·.tellsLook) =
        (Request.journal requests e).filter (!·.tellsLook)) ∧
    (e.machine.exitCode = none →
      (e.machine.peek.result = .ok none ↔
        e.machine.step = .done { e.machine with exitCode := some 0 } ()) ∧
      (∀ failure, e.machine.peek.result = .error failure ↔
        e.machine.step.result = .error failure ∧
          ∃ fault, failure = .fault fault ∧ fault.isDecode) ∧
      (∀ i, e.machine.peek.result = .ok (some i) ↔ e.machine.Executes i) ∧
      ∀ (looks : List Nat) (n : Nat),
        (Operation.run ((looks.flatMap fun n => List.replicate n .peek ++ [.step]) ++
          List.replicate n .peek) e.machine).step =
          (Operation.run (List.replicate looks.length .step) e.machine).step) ∧
    ∀ operations : List Operation,
      (Operation.run operations e.machine).withDecoder {} =
        (Operation.run (Operation.withoutLooks operations) e.machine).withDecoder {} ∧
      Operation.otherAnswers operations e.machine =
        Operation.answers (Operation.withoutLooks operations) e.machine := by
  have h := hm.sound
  refine ⟨fun requests => ⟨serveAll_withDebug h debug requests, ?_⟩, fun hrunning => ?_,
    fun operations => Operation.run_withoutLooks operations h.decoder⟩
  · have hdebug : (e.withDebug debug).machine.Sound := h
    rw [filter_journal hdebug, filter_journal h]
    rfl
  · refine ⟨Machine.peek_eq_none_iff h hrunning, fun _ => Machine.peek_eq_error_iff h hrunning,
      fun _ => Machine.peek_eq_some_iff h hrunning, fun looks n => ?_⟩
    have hstart := Machine.HaltsAtEnd.of_running h hrunning
    rw [Operation.run_append, hstart.run_looks, (hstart.run_step looks.length).step_run_peek]

/-- A program that returns without a call.  The look ahead shows the return, the step executes it, and
the emulator is stopped by the same fault whether it looks or not. -/
theorem debug_only_observes_return :
    ∃ m : Machine, m.Reachable ∧ m.exitCode = none ∧ m.peek.result = .ok (some .ret) ∧
      m.Executes .ret ∧
      let e : Emulator := { machine := m, settings := {} }
      let requests := [.move .w true, .update #[], .frame]
      (serveAll requests (e.withDebug true)).2 = (serveAll requests e).2 ∧
        (serveAll requests (e.withDebug true)).1.fault = (serveAll requests e).1.fault := by
  obtain ⟨m, hreached, hrunning, -, -, hopcode⟩ :=
    Machine.exists_loaded #[0x00, 0xEE] 0x00 0xEE (by decide) rfl rfl (by decide)
  have hdecode : (Opcode.ofBytes 0x00 0xEE).decode = .ok .ret := Opcode.decode_of_nibbles_eq rfl
  have hpeek : m.peek.result = .ok (some .ret) := by
    rw [Machine.result_peek hreached.sound]
    simp only [hopcode, hdecode]
    rfl
  let e : Emulator := { machine := m, settings := {} }
  obtain ⟨hrequests, htells, -⟩ := debug_only_observes (e := e) hreached true
  obtain ⟨hserved, -⟩ := hrequests [.move .w true, .update #[], .frame]
  refine ⟨m, hreached, hrunning, hpeek, ((htells hrunning).2.2.1 .ret).mp hpeek, ?_, ?_⟩
  · rw [hserved]
  · rw [hserved]
    rfl

end Emulator

end Chip8
