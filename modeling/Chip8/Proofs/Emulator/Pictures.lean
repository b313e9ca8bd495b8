import Chip8.Headless
import Chip8.Proofs.Emulator.Requests
import Chip8.Proofs.Outcome

/-!
# Frames with their pictures

A frontend draws the pictures of its frames into one buffer.  The emulator never reads it, so all that
matters of a buffer is whether a picture has room in it.

* `Emulator.lockstep_alike`: with buffers of one size two emulators do the same.
* `Emulator.Fits`: the buffer has room for the picture of a sound machine.  Then an update succeeds and
  does to the emulator what `Emulator.advance` does (`Fits.update`), all along a run
  (`Headless.run_eq_advance`).  A new machine fits the buffer that a run begins with.
-/

namespace Chip8

namespace Emulator

/-! ## Buffers of one size -/

theorem size_render (s : Screen) (buffer : FrameBuffer) :
    (s.render buffer).state.size = buffer.size := by
  unfold Screen.render FrameBuffer.write
  split <;> exact buffer.size_overlay 0 s.picture

theorem result_render {s : Screen} {buffer buffer' : FrameBuffer} (h : buffer'.size = buffer.size) :
    (s.render buffer').result = (s.render buffer).result := by
  unfold Screen.render FrameBuffer.write
  rw [h]
  split <;> rfl

/-- An update leaves the size of the buffer as it is. -/
theorem size_update (state : Emulator × FrameBuffer) :
    (update state).state.2.size = state.2.size := by
  obtain ⟨e, buffer⟩ := state
  simp only [update]
  obtain ⟨e', failure | _ | _⟩ := e.advance
  · rfl
  · rfl
  · exact size_render e'.machine.screen buffer

/-- Whether an update succeeds follows from the emulator and the size of the buffer. -/
theorem result_update {e : Emulator} {buffer buffer' : FrameBuffer}
    (h : buffer'.size = buffer.size) :
    (update (e, buffer')).result = (update (e, buffer)).result := by
  simp only [update]
  obtain ⟨e', failure | _ | _⟩ := e.advance
  · rfl
  · rfl
  · exact result_render h

/-- The same emulator with buffers of one size. -/
structure Alike (s t : Emulator × FrameBuffer) : Prop where
  emulator_eq : t.1 = s.1
  size_eq : t.2.size = s.2.size

/-- What two runs leave that have gone the same way. -/
theorem Alike.within_eq {o o' : Outcome (Emulator × FrameBuffer) Failure Unit}
    (h : Alike o.state o'.state) (hresult : o'.result = o.result.mapError id) :
    o'.within Prod.fst = o.within Prod.fst := by
  refine congrArg₂ Outcome.mk h.emulator_eq (hresult.trans ?_)
  cases o.result <;> rfl

/-- Two loops that look at nothing but the emulator go the same way with buffers of one size. -/
theorem lockstep_alike (stop : Emulator → Bool) :
    Outcome.Lockstep Alike id (fun s => stop s.1) update (fun s => stop s.1) update where
  stop_eq h := congrArg stop h.emulator_eq
  state {s t} h _ := by
    refine ⟨?_, ?_⟩
    · rw [fst_update, fst_update, h.emulator_eq]
    · rw [size_update, size_update, h.size_eq]
  result {s t} h _ := by
    obtain ⟨e, buffer⟩ := s
    obtain ⟨e', buffer'⟩ := t
    obtain rfl : e' = e := h.emulator_eq
    rw [result_update h.size_eq]
    cases (update (e', buffer)).result <;> rfl

/-! ## Buffers with room for the picture -/

/-- The machine is sound, and the buffer has room for the picture of its screen. -/
structure Fits (e : Emulator) (buffer : FrameBuffer) : Prop where
  sound : e.machine.Sound
  room : 3 * e.machine.screen.pixels.size ≤ buffer.size

/-- An update of an emulator that is not over runs a frame to its end and takes the note of the
screen. -/
theorem update_eq {e : Emulator} (h : e.machine.Sound) (hover : e.isOver = false)
    {buffer : FrameBuffer} (hroom : 3 * e.machine.screen.pixels.size ≤ buffer.size) :
    ∃ shown : FrameBuffer, update (e, buffer) = .done (e.framed.takeDirty.state, shown) () := by
  have hshape := (framed_related Machine.lasting_redrawn (fun m => .refl m.screen) e).shape
  have hroom' : 3 * e.framed.machine.screen.clean.pixels.size ≤ buffer.size :=
    (show e.framed.machine.screen.pixels.size = _ from hshape.size_pixels) ▸ hroom
  simp only [update, advance_eq h hover, takeDirty, Outcome.done]
  cases e.framed.machine.screen.dirty with
  | true =>
    refine ⟨buffer.overlay 0 e.framed.machine.screen.clean.picture, ?_⟩
    simp only [Screen.render_eq hroom', Outcome.done, Outcome.within]
  | false => exact ⟨buffer, rfl⟩

theorem update_of_isOver {e : Emulator} (hover : e.isOver = true) (buffer : FrameBuffer) :
    update (e, buffer) = .done (e, buffer) () := by
  simp only [update, advance, hover, if_true, Outcome.done]

/-- An update that has room for its picture succeeds, and so does the next one. -/
theorem Fits.update {e : Emulator} {buffer : FrameBuffer} (h : e.Fits buffer) :
    ∃ shown, Emulator.update (e, buffer) = .done (e.advance.state, shown) () ∧
      e.advance.state.Fits shown := by
  have hsize := size_update (e, buffer)
  obtain ⟨shown, hupdate⟩ :
      ∃ shown, Emulator.update (e, buffer) = .done (e.advance.state, shown) () := by
    cases hover : e.isOver with
    | true =>
      rw [advance, if_pos hover]
      exact ⟨buffer, update_of_isOver hover buffer⟩
    | false =>
      rw [advance_eq h.sound hover]
      exact update_eq h.sound hover h.room
  rw [hupdate] at hsize
  refine ⟨shown, hupdate, (sound_advance h.sound).1, ?_⟩
  rw [e.sameShape_advance.size_pixels, show shown.size = buffer.size from hsize]
  exact h.room

/-- A new machine has a screen whose picture fits. -/
theorem Fits.of_sameShape {e : Emulator} (h : e.machine.Sound)
    (hshape : Screen.standard.SameShape e.machine.screen) {buffer : FrameBuffer}
    (hsize : buffer.size = 6144) : e.Fits buffer := by
  refine ⟨h, ?_⟩
  rw [hshape.size_pixels, hsize]
  simp [Screen.standard, Screen.dark, Screen.defaultHeight, Screen.defaultWidth]

/-- Updates that have room for their pictures do what `advance` does. -/
theorem lockstep_fits :
    Outcome.Lockstep (fun (e : Emulator) (s : Emulator × FrameBuffer) => s.1 = e ∧ e.Fits s.2) id
      isOver advance (·.1.isOver) update where
  stop_eq h := congrArg isOver h.1
  state {e s} h _ := by
    obtain ⟨rfl, hfits⟩ := h
    obtain ⟨shown, hupdate, hnext⟩ := hfits.update
    rw [hupdate]
    exact ⟨rfl, hnext⟩
  result {e s} h _ := by
    obtain ⟨rfl, hfits⟩ := h
    obtain ⟨shown, hupdate, -⟩ := hfits.update
    obtain ⟨-, dirty, hresult⟩ := sound_advance hfits.sound
    rw [hupdate, hresult]
    rfl

end Emulator

/-! ## Runs without a display -/

namespace Headless

open Emulator (Alike Fits)

/-- A run goes the same way with every buffer of the size of the one that it begins with. -/
theorem run_eq_loop {state : Emulator × FrameBuffer} (hsize : state.2.size = FrameBuffer.blank.size)
    (limit : Option Nat) : run limit state.1 = (loop limit state).within Prod.fst := by
  obtain ⟨hstate, hresult⟩ := (Emulator.lockstep_alike Emulator.isOver).repeatUntil
    (framesLeft limit state.1) (s := state) (t := (state.1, .blank)) ⟨rfl, hsize.symm⟩
  exact hstate.within_eq hresult

theorem size_loop (limit : Option Nat) (state : Emulator × FrameBuffer) :
    (loop limit state).state.2.size = state.2.size := by
  have hstep (s : Emulator × FrameBuffer) (h : s.2.size = state.2.size) :
      (Emulator.update s).state.2.size = state.2.size ∧
        ∀ failure, (Emulator.update s).result = .error failure → True :=
    ⟨(Emulator.size_update s).trans h, fun _ _ => trivial⟩
  exact (Outcome.repeatUntil_keeps hstep (framesLeft limit state.1) rfl).1

variable {e : Emulator}

/-- Where the pictures have room a run repeats frames and does nothing else. -/
theorem run_eq_advance (h : e.Fits .blank) (limit : Option Nat) :
    run limit e = .repeatUntil Emulator.isOver Emulator.advance (framesLeft limit e) e := by
  obtain ⟨hstate, hresult⟩ := Emulator.lockstep_fits.repeatUntil (framesLeft limit e)
    (t := (e, .blank)) ⟨rfl, h⟩
  rw [run, Outcome.within]
  refine congrArg₂ Outcome.mk hstate.1 (hresult.trans ?_)
  cases (Outcome.repeatUntil _ Emulator.advance _ e).result <;> rfl

/-- A run whose pictures have room ends without an error. -/
theorem result_run (h : e.Fits .blank) (limit : Option Nat) : (run limit e).result = .ok () := by
  have hstep (e : Emulator) (h : e.machine.Sound) :
      e.advance.state.machine.Sound ∧ ∀ failure, e.advance.result = .error failure → False := by
    obtain ⟨hsound, dirty, hresult⟩ := Emulator.sound_advance h
    refine ⟨hsound, fun failure hfails => ?_⟩
    rw [hresult] at hfails
    cases hfails
  obtain ⟨-, hnever⟩ := Outcome.repeatUntil_keeps hstep (framesLeft limit e) h.sound
  rw [run_eq_advance h]
  cases hresult : (Outcome.repeatUntil Emulator.isOver Emulator.advance _ e).result with
  | ok answer => rfl
  | error failure => exact (hnever failure hresult).elim

end Headless

end Chip8
