import Mathlib.Logic.Relation
import Chip8.Proofs.Emulator.Frames
import Chip8.Proofs.Machine.Inspection
import Chip8.Proofs.Machine.Refusals
import Chip8.Proofs.Reference.Simulation

/-!
# The schedule of a run

A run of an emulator makes a number of steps, ticks the timers, and so on, up to a number of frames.
`Schedule` says this of a machine alone: no emulator counts the frames, looks at instructions or takes
the note of the screen.

* `Schedule.Next`: a step or a tick of the schedule.  It goes on in one way only (`Next.unique`), so it
  comes to one point from which it does not go on (`Schedule.eq_of_last`): there a step fails
  (`Schedule.Fails`) or the schedule is over (`Schedule.Over`).
* `Machine.cycles_reaches`: the cycles of a frame are the steps of the schedule in it.
* `Emulator.At` and `Emulator.FailedAt`: an emulator has come to a point of the schedule.  A frame takes
  it from one to the next (`At.advance`), and a run to the last (`At.run`).
-/

namespace Chip8

/-- How often a machine is stepped between two ticks of its timers, and for how many frames. -/
structure Schedule where
  /-- The number of steps in a frame. -/
  perFrame : Nat
  /-- The number of frames. -/
  limit : Nat

namespace Schedule

/-- A point of a schedule. -/
structure Point where
  /-- The machine. -/
  machine : Machine
  /-- The number of frames before the point. -/
  frames : Nat := 0
  /-- The number of steps since the last tick. -/
  steps : Nat := 0

/-- How a schedule goes on.  The steps of a frame are cut short when the machine halts, and then no
frame is begun any more. -/
inductive Next (s : Schedule) : Point → Point → Prop
  /-- A step in a frame. -/
  | step {p : Point} {m : Machine} (hframes : p.frames < s.limit) (hsteps : p.steps < s.perFrame)
      (hrunning : p.machine.exitCode = none) (hstep : p.machine.step = .done m ()) :
      Next s p { machine := m, frames := p.frames, steps := p.steps + 1 }
  /-- The tick at the end of a frame. -/
  | tick {p : Point} (hbegun : 0 < p.steps)
      (hdone : p.steps = s.perFrame ∨ p.machine.exitCode ≠ none) :
      Next s p { machine := p.machine.tick.1, frames := p.frames + 1, steps := 0 }

/-- The schedule comes from one point to another. -/
def Reaches (s : Schedule) : Point → Point → Prop := Relation.ReflTransGen s.Next

/-- The next step of the schedule fails. -/
structure Fails (s : Schedule) (p : Point) (failure : Failure) : Prop where
  frames : p.frames < s.limit
  steps : p.steps < s.perFrame
  running : p.machine.exitCode = none
  result : p.machine.step.result = .error failure

/-- No frame is left, or the machine has halted. -/
structure Over (s : Schedule) (p : Point) : Prop where
  steps : p.steps = 0
  ended : s.limit ≤ p.frames ∨ p.machine.exitCode ≠ none

variable {s : Schedule} {p q : Point} {failure : Failure}

/-! ## Where a schedule ends -/

/-- A schedule goes on in one way only. -/
theorem Next.unique {q' : Point} (h : s.Next p q) (h' : s.Next p q') : q = q' := by
  cases h with
  | step hframes hsteps hrunning hstep =>
    cases h' with
    | step _ _ _ hstep' =>
      rw [hstep] at hstep'
      cases hstep'
      rfl
    | tick _ hdone => exact absurd hrunning (hdone.resolve_left (by omega))
  | tick _ hdone =>
    cases h' with
    | step _ hsteps hrunning _ => exact absurd hrunning (hdone.resolve_left (by omega))
    | tick _ _ => rfl

theorem Fails.last (h : s.Fails p failure) (q : Point) : ¬ s.Next p q := by
  intro hnext
  cases hnext with
  | step _ _ _ hstep =>
    have hresult := h.result
    rw [hstep] at hresult
    cases hresult
  | tick _ hdone =>
    have hsteps := h.steps
    exact hdone.resolve_left (by omega) h.running

theorem Over.last (h : s.Over p) (q : Point) : ¬ s.Next p q := by
  intro hnext
  cases hnext with
  | step hframes _ hrunning _ => exact h.ended.resolve_left (by omega) hrunning
  | tick hbegun _ => exact Nat.ne_of_gt hbegun h.steps

theorem Over.not_fails (h : s.Over p) : ¬ s.Fails p failure := fun hfails =>
  h.ended.resolve_left (Nat.not_le.mpr hfails.frames) hfails.running

/-- A schedule comes to one point from which it does not go on. -/
theorem eq_of_last {start : Point} (hp : s.Reaches start p) (hq : s.Reaches start q)
    (hlastp : ∀ r, ¬ s.Next p r) (hlastq : ∀ r, ¬ s.Next q r) : p = q := by
  have hstay {p q : Point} (hlast : ∀ r, ¬ s.Next p r) (h : s.Reaches p q) : p = q := by
    obtain rfl | ⟨r, hnext, -⟩ := h.cases_head
    · rfl
    · exact absurd hnext (hlast r)
  have hunique : Relator.RightUnique s.Next := fun _ _ _ h h' => h.unique h'
  obtain hpq | hqp := Relation.ReflTransGen.total_of_right_unique hunique hp hq
  · exact hstay hlastp hpq
  · exact (hstay hlastq hqp).symm

/-- What holds of the machine at every point of a schedule. -/
structure Point.Sound (p : Point) : Prop where
  machine : p.machine.Sound
  exitCode : p.machine.exitCode = none ∨ p.machine.exitCode = some 0

theorem Next.sound (h : s.Next p q) (hp : p.Sound) : q.Sound := by
  cases h with
  | step _ _ hrunning hstep =>
    have hnext := hp.machine.step
    have hexit := Machine.exitCode_step hp.machine
    rw [hstep] at hnext hexit
    exact ⟨hnext, hexit.imp_left fun hkept => hkept.trans hrunning⟩
  | tick => exact ⟨hp.machine.tick, hp.exitCode⟩

theorem Reaches.sound (h : s.Reaches p q) (hp : p.Sound) : q.Sound := by
  induction h with
  | refl => exact hp
  | tail _ hnext ih => exact hnext.sound ih

end Schedule

namespace Machine

/-! ## The steps of a frame -/

/-- The cycles of a frame are the steps of the schedule in it. -/
theorem cycles_reaches {s : Schedule} {p : Schedule.Point} {m : Machine} (hm : m.Sound)
    (hp : p.machine.Sound) (hview : m.view = p.machine.view) (inspect : Bool)
    (hframes : p.frames < s.limit) {n : Nat} (hn : p.steps + n = s.perFrame) :
    ∃ q, s.Reaches p q ∧ q.frames = p.frames ∧
      (m.cycles inspect n).state.view = q.machine.view ∧
      (((m.cycles inspect n).result = .ok () ∧
          (q.steps = s.perFrame ∨ q.machine.exitCode ≠ none) ∧ p.steps ≤ q.steps ∧
          (p.machine.exitCode = none → 0 < n → p.steps < q.steps)) ∨
        ∃ failure, (m.cycles inspect n).result = .error failure ∧ s.Fails q failure) := by
  induction n generalizing p m with
  | zero => exact ⟨p, .refl, rfl, hview, .inl ⟨rfl, .inl hn, Nat.le_refl _, by simp⟩⟩
  | succ n ih =>
    have hexit := exitCode_eq_of_view_eq hview
    cases hhalted : m.hasHalted with
    | true =>
      have hover : p.machine.exitCode ≠ none := hexit ▸ hasHalted_iff.mp hhalted
      rw [cycles, Outcome.repeatUntil_of_stop (n + 1) hhalted]
      exact ⟨p, .refl, rfl, hview, .inl ⟨rfl, .inr hover, Nat.le_refl _, fun h => absurd h hover⟩⟩
    | false =>
      have hrunning := hasHalted_eq_false_iff.mp hhalted
      have hrunning' := hexit.symm.trans hrunning
      -- The cycle and the step of the schedule do the same.
      obtain ⟨hstep, hanswer⟩ := view_step hm
      obtain ⟨hstep', hanswer'⟩ := view_step hp
      rw [← hview] at hstep' hanswer'
      have hnext : m.step.state.view = p.machine.step.state.view := hstep.trans hstep'.symm
      have hsame : m.step.result = p.machine.step.result := hanswer.trans hanswer'.symm
      rw [cycles, Outcome.repeatUntil_succ hhalted, cycle_eq_step hrunning hm.executing, hsame]
      cases hp' : p.machine.step.result with
      | error failure =>
        obtain ⟨w, -, hstate⟩ := state_step_of_error hp hp'
        rw [hstate] at hnext
        exact ⟨p, .refl, rfl, hnext, .inr ⟨failure, rfl, hframes, by omega, hrunning', hp'⟩⟩
      | ok answer =>
        have hdone : p.machine.step = .done p.machine.step.state () := Outcome.eq_done hp'
        have hgoes : s.Next p _ := .step hframes (by omega) hrunning' hdone
        obtain ⟨q, hreaches, hq, hviewq, hends⟩ :=
          ih (p := { machine := p.machine.step.state, frames := p.frames, steps := p.steps + 1 })
            hm.step hp.step hnext hframes (by dsimp only; omega)
        refine ⟨q, .head hgoes hreaches, hq, hviewq, hends.imp_left ?_⟩
        rintro ⟨hok, hdone, hle, -⟩
        exact ⟨hok, hdone, Nat.le_of_succ_le hle, fun _ _ => hle⟩

end Machine

namespace Emulator

/-! ## The frames of a run -/

/-- A running emulator that has come to a point of the schedule between two frames. -/
structure At (s : Schedule) (e : Emulator) (p : Schedule.Point) : Prop where
  sound : e.machine.Sound
  point : p.Sound
  view : e.machine.view = p.machine.view
  perFrame : e.cyclesPerFrame = s.perFrame
  stopped : e.stopped = false
  fault : e.fault = none
  frames : e.frames = p.frames
  steps : p.steps = 0

/-- An emulator that was stopped by the fault of a step of the schedule. -/
structure FailedAt (s : Schedule) (e : Emulator) (p : Schedule.Point) : Prop where
  view : e.machine.view = p.machine.view
  stopped : e.stopped = true
  fault : ∃ fault, e.fault = some fault ∧ s.Fails p (.fault fault)

variable {s : Schedule} {e : Emulator} {p : Schedule.Point}

/-- A frame makes the steps of the schedule up to the next tick, or up to a step that fails. -/
theorem At.advance (h : At s e p) (hframes : p.frames < s.limit) (hover : e.isOver = false) :
    ∃ q, s.Reaches p q ∧
      (At s e.advance.state q ∧ q.frames = p.frames + 1 ∨ FailedAt s e.advance.state q) := by
  obtain ⟨q, hreaches, hq, hview, hends⟩ :=
    Machine.cycles_reaches h.sound h.point.machine h.view e.settings.debug hframes
      (n := e.cyclesPerFrame) (by rw [h.steps, h.perFrame, Nat.zero_add])
  have hsound := (Emulator.sound_advance h.sound).1
  have hbounds := (h.sound.cycles e.settings.debug e.cyclesPerFrame).2
  have hrunning : p.machine.exitCode = none := by
    rw [← Machine.exitCode_eq_of_view_eq h.view]
    exact Machine.hasHalted_eq_false_iff.mp (hasHalted_of_isOver hover)
  rw [advance_eq h.sound hover, framed, runFrame] at hsound ⊢
  generalize e.machine.cycles e.settings.debug e.cyclesPerFrame = outcome
    at hview hends hbounds hsound ⊢
  obtain ⟨m, result⟩ := outcome
  obtain ⟨rfl, hdone, -, hbegun⟩ | ⟨failure, rfl, hfails⟩ := hends
  -- All steps succeed, so the frame ends with a tick.
  · have hpos : 0 < e.cyclesPerFrame := Nat.lt_of_lt_of_le Nat.one_pos (Nat.le_max_left 1 _)
    have hticks : s.Next q _ := .tick (Nat.zero_lt_of_lt (hbegun hrunning hpos)) hdone
    refine ⟨_, hreaches.tail hticks, .inl
      ⟨⟨hsound, ?_, ?_, h.perFrame, h.stopped, h.fault, ?_, rfl⟩, ?_⟩⟩
    · exact hticks.sound (hreaches.sound h.point)
    · show m.tick.1.view = q.machine.tick.1.view
      rw [Machine.view_tick, Machine.view_tick, show m.view = q.machine.view from hview]
    · show e.frames + 1 = q.frames + 1
      rw [hq, h.frames]
    · show q.frames + 1 = p.frames + 1
      rw [hq]
  -- A step fails, and the note of the screen is all that is taken behind it.
  · cases failure with
    | outOfBounds => exact absurd rfl (hbounds _ rfl)
    | fault fault => exact ⟨q, hreaches, .inr ⟨hview, rfl, fault, rfl, hfails⟩⟩

/-- A run makes the steps of the schedule up to its end, or up to a step that fails. -/
theorem At.run (h : At s e p) {n : Nat} (hn : p.frames + n = s.limit) :
    (Outcome.repeatUntil isOver Emulator.advance n e).result = .ok () ∧
    ∃ q, s.Reaches p q ∧
      let e' := (Outcome.repeatUntil isOver Emulator.advance n e).state
      (At s e' q ∧ s.Over q ∨ FailedAt s e' q) := by
  induction n generalizing e p with
  | zero =>
    exact ⟨rfl, p, .refl, .inl ⟨h, h.steps, .inl (Nat.le_of_eq hn.symm)⟩⟩
  | succ n ih =>
    cases hover : e.isOver with
    | true =>
      have hhalted : p.machine.exitCode ≠ none := by
        rw [← Machine.exitCode_eq_of_view_eq h.view]
        rw [isOver, h.stopped, Bool.false_or] at hover
        exact Machine.hasHalted_iff.mp hover
      rw [Outcome.repeatUntil_of_stop (n + 1) hover]
      exact ⟨rfl, p, .refl, .inl ⟨h, h.steps, .inr hhalted⟩⟩
    | false =>
      obtain ⟨-, dirty, hresult⟩ := Emulator.sound_advance h.sound
      obtain ⟨q, hreaches, ⟨hat, hframes⟩ | hfailed⟩ := h.advance (by omega) hover
      · obtain ⟨hok, q', hreaches', hends⟩ := ih hat (by omega)
        rw [Outcome.repeatUntil_succ hover, hresult]
        exact ⟨hok, q', hreaches.trans hreaches', hends⟩
      · have hstop : e.advance.state.isOver = true := by rw [isOver, hfailed.stopped, Bool.true_or]
        rw [Outcome.repeatUntil_succ hover, hresult]
        dsimp only
        rw [Outcome.repeatUntil_of_stop n hstop]
        exact ⟨rfl, q, hreaches, .inr hfailed⟩

end Emulator

end Chip8
