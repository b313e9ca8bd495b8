import Chip8.Emulator
import Chip8.Proofs.Machine.Effects
import Chip8.Proofs.Machine.Invariant

/-!
# Frames of an emulator

A frame runs cycles of the machine and then ticks the timers, and a frame that fails is remembered and
ends the run.  Either way the emulator takes the note of the screen at the end.

* `Machine.Sound.cycles`: cycles keep a machine sound and fail with nothing but a fault.
* `Emulator.framed`: the emulator after a frame, before the note of the screen is taken.
* `Emulator.advance_eq`: on a sound machine there is no more to `Emulator.advance`, which therefore keeps
  the machine sound and does not fail (`Emulator.sound_advance`).
* `Emulator.framed_related`: what steps and ticks do not break, a frame does not break.
-/

namespace Chip8

namespace Machine

/-! ## Cycles of a sound machine -/

namespace Sound

variable {m : Machine}

theorem peek (h : m.Sound) :
    m.peek.state.Sound ∧ ∀ failure, m.peek.result = .error failure → failure ≠ .outOfBounds := by
  rw [peek_eq h.decoder]
  cases m.nextOpcode with
  | none => exact ⟨h, fun failure hresult => nomatch hresult⟩
  | some w =>
    refine ⟨h.seeing w, fun failure hresult => ?_⟩
    dsimp only at hresult
    generalize w.decode = decoded at hresult
    cases decoded with
    | ok i => cases hresult
    | error fault =>
      cases hresult
      simp

/-- A step of a sound machine reaches outside nothing. -/
theorem step_ne_outOfBounds (h : m.Sound) {failure : Failure}
    (hresult : m.step.result = .error failure) : failure ≠ .outOfBounds := by
  cases h.stepped with
  | halted hhalted hstep => rw [hstep] at hresult; cases hresult
  | halts hrunning hopcode hstep => rw [hstep] at hresult; cases hresult
  | unknown w hrunning hopcode hdecode hstep => rw [hstep] at hresult; cases hresult; simp
  | refused w i fault hrunning hopcode hdecode hexecute hstep =>
    rw [hstep] at hresult
    cases hresult
    simp
  | performed w i m' hrunning hopcode hdecode hexecute hstep =>
    rw [hstep] at hresult
    cases hresult

theorem cycle (h : m.Sound) (inspect : Bool) :
    (m.cycle inspect).state.Sound ∧
      ∀ failure, (m.cycle inspect).result = .error failure → failure ≠ .outOfBounds := by
  unfold Machine.cycle
  split
  · have hpeek := h.peek
    generalize m.peek = outcome at hpeek ⊢
    obtain ⟨m', failure | next⟩ := outcome
    · refine ⟨hpeek.1, fun failure' hresult => ?_⟩
      cases hresult
      exact hpeek.2 failure rfl
    · exact ⟨hpeek.1.step, fun _ => hpeek.1.step_ne_outOfBounds⟩
  · exact ⟨h.step, fun _ => h.step_ne_outOfBounds⟩

theorem cycles (h : m.Sound) (inspect : Bool) (n : Nat) :
    (m.cycles inspect n).state.Sound ∧
      ∀ failure, (m.cycles inspect n).result = .error failure → failure ≠ .outOfBounds :=
  Outcome.repeatUntil_keeps (fun _ hm => hm.cycle inspect) n h

theorem tick (h : m.Sound) : m.tick.1.Sound := { h with }

end Sound

end Machine

namespace Emulator

/-! ## One frame -/

/-- The emulator after a frame, which remembers the fault if there was one. -/
def framed (e : Emulator) : Emulator :=
  match e.runFrame with
  | ⟨e, .error (.fault fault)⟩ => { e with fault := some fault, stopped := true }
  | ⟨e, _⟩ => e

theorem machine_runFrame (e : Emulator) :
    e.runFrame.state.machine =
      match (e.machine.cycles e.settings.debug e.cyclesPerFrame).result with
      | .ok _ => (e.machine.cycles e.settings.debug e.cyclesPerFrame).state.tick.1
      | .error _ => (e.machine.cycles e.settings.debug e.cyclesPerFrame).state := by
  unfold runFrame
  obtain ⟨m, _ | _⟩ := e.machine.cycles e.settings.debug e.cyclesPerFrame <;> rfl

theorem machine_framed (e : Emulator) : e.framed.machine = e.runFrame.state.machine := by
  unfold framed
  obtain ⟨e', (_ | _) | _⟩ := e.runFrame <;> rfl

/-- A frame of a sound machine reaches outside nothing. -/
theorem runFrame_ne_outOfBounds {e : Emulator} (h : e.machine.Sound) {failure : Failure}
    (hresult : e.runFrame.result = .error failure) : failure ≠ .outOfBounds := by
  have hcycles := (h.cycles e.settings.debug e.cyclesPerFrame).2
  unfold runFrame at hresult
  generalize e.machine.cycles e.settings.debug e.cyclesPerFrame = outcome at hcycles hresult
  obtain ⟨m, failure' | _⟩ := outcome
  · cases hresult
    exact hcycles failure rfl
  · cases hresult

/-- On a sound machine a frame is run, its fault is remembered and the note of the screen is taken. -/
theorem advance_eq {e : Emulator} (h : e.machine.Sound) (hover : e.isOver = false) :
    e.advance = e.framed.takeDirty := by
  have hbounds : ∀ failure, e.runFrame.result = .error failure → failure ≠ .outOfBounds :=
    fun _ => runFrame_ne_outOfBounds h
  rw [advance, if_neg (by simp [hover]), framed]
  generalize e.runFrame = outcome at hbounds ⊢
  obtain ⟨e', (fault | _) | _⟩ := outcome
  · rfl
  · exact absurd rfl (hbounds .outOfBounds rfl)
  · rfl

theorem sound_runFrame {e : Emulator} (h : e.machine.Sound) : e.runFrame.state.machine.Sound := by
  have hcycles := (h.cycles e.settings.debug e.cyclesPerFrame).1
  rw [machine_runFrame]
  split
  · exact hcycles.tick
  · exact hcycles

theorem sound_framed {e : Emulator} (h : e.machine.Sound) : e.framed.machine.Sound :=
  e.machine_framed ▸ sound_runFrame h

/-- An emulator of a sound machine keeps it sound, and nothing but the machine can make it fail. -/
theorem sound_advance {e : Emulator} (h : e.machine.Sound) :
    e.advance.state.machine.Sound ∧ ∃ dirty, e.advance.result = .ok dirty := by
  cases hover : e.isOver with
  | true =>
    rw [advance, if_pos hover]
    exact ⟨h, _, rfl⟩
  | false =>
    have hframed := sound_framed h
    rw [advance_eq h hover]
    exact ⟨{ hframed with screen := { hframed.screen with } }, _, rfl⟩

theorem hasHalted_of_isOver {e : Emulator} (h : e.isOver = false) : e.machine.hasHalted = false := by
  rw [isOver, Bool.or_eq_false_iff] at h
  exact h.2

/-- A frame of one step. -/
theorem framed_of_step {e : Emulator} (hdebug : e.settings.debug = false)
    (hcycles : e.cyclesPerFrame = 1) (hover : e.isOver = false) {m : Machine}
    (hstep : e.machine.step = .done m ()) : e.framed = { e with machine := m }.finishFrame := by
  have hcycle : e.machine.cycle false = .done m () := hstep
  have hrun : e.machine.cycles e.settings.debug e.cyclesPerFrame = .done m () := by
    rw [hdebug, hcycles, Machine.cycles, Outcome.repeatUntil_succ (hasHalted_of_isOver hover), hcycle]
    rfl
  rw [framed, runFrame, hrun]
  rfl

/-- A frame whose first step is refused ends there. -/
theorem framed_of_step_refuse {e : Emulator} (hdebug : e.settings.debug = false)
    (hover : e.isOver = false) {m : Machine} {fault : Fault}
    (hstep : e.machine.step = .refuse m fault) :
    e.framed = { e with machine := m, fault := some fault, stopped := true } := by
  obtain ⟨n, hn⟩ : ∃ n, e.cyclesPerFrame = n + 1 :=
    Nat.exists_eq_add_one.mpr (Nat.lt_of_lt_of_le Nat.one_pos (Nat.le_max_left 1 _))
  have hcycle : e.machine.cycle false = .refuse m fault := hstep
  have hcycles : e.machine.cycles e.settings.debug e.cyclesPerFrame = .refuse m fault := by
    rw [hdebug, hn, Machine.cycles, Outcome.repeatUntil_succ (hasHalted_of_isOver hover),
      hcycle]
    rfl
  rw [framed, runFrame, hcycles]
  rfl

section Related

variable {R : Machine → Machine → Prop} (h : Machine.Lasting R) (htick : ∀ m, R m m.tick.1)

include h htick

theorem runFrame_related (e : Emulator) : R e.machine e.runFrame.state.machine := by
  have hcycles := h.cycles e.settings.debug e.cyclesPerFrame e.machine
  rw [machine_runFrame]
  split
  · exact h.trans hcycles (htick _)
  · exact hcycles

theorem framed_related (e : Emulator) : R e.machine e.framed.machine :=
  e.machine_framed ▸ runFrame_related h htick e

end Related

end Emulator

end Chip8
