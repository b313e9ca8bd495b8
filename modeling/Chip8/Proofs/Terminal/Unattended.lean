import Chip8.Proofs.Terminal.KeyHold

/-!
# Terminals that nobody attends to

A run in a terminal and a run without a display do the same to the emulator as long as the polls report
nothing that moves a key of the keypad or ends the run.

* `KeyReport.Idle`: the reports that change nothing while all keys are up.
* `Terminal.Unattended`: a run in which no key is down and only idle reports are to come.  A turn keeps
  it and updates the emulator and its picture, and does nothing else to them (`Unattended.turn`).
* `Terminal.lockstep_runs`: such a run makes the updates that a run without a display makes.
-/

namespace Chip8

/-- A report that changes nothing while all keys are up: a key is released, or a key is pressed that
neither stands for one of the keypad nor ends the run. -/
def KeyReport.Idle (r : KeyReport) : Prop :=
  r.isPress → r.key.keypad? = none ∧ r.key ≠ .escape

namespace Emulator

/-- An idle report changes nothing while all keys are up. -/
theorem handleKey_of_idle {e : Emulator} (hup : ∀ slot, e.machine.keypad.isPressed slot = false)
    {r : KeyReport} (h : r.Idle) : e.handleKey r.key r.isPress = e := by
  cases r with
  | press key =>
    obtain ⟨hkey, hescape⟩ := h rfl
    simp only [KeyReport.key] at hkey hescape
    simp [handleKey, KeyReport.key, hkey, hescape]
  | release key =>
    rw [handleKey, if_neg (by simp [KeyReport.isPress])]
    cases hkey : key.keypad? with
    | none => simp [KeyReport.key, hkey]
    | some slot =>
      have hset := Keypad.set_of_up (Key.lt_of_keypad?_eq hkey) (hup slot)
      simp only [KeyReport.key, KeyReport.isPress, hkey, Machine.setKey, hset]
      rfl

end Emulator

namespace Terminal

/-- No key is down, and only idle reports are to come. -/
structure Unattended (t : Terminal) : Prop where
  up : ∀ slot, t.emulator.machine.keypad.isPressed slot = false
  held : t.held = []
  polls : ∀ poll ∈ t.polls, ∃ reports, poll = .ok reports ∧ ∀ r ∈ reports, r.Idle

namespace Unattended

variable {t : Terminal}

theorem report (h : t.Unattended) {r : KeyReport} (hr : r.Idle) : t.report r = t := by
  have hheld : t.held.report (max 1 t.holdFrames) r = t.held := by
    rw [h.held]
    cases r with
    | press key => simp [HeldKeys.report, show key.keypad? = none from (hr rfl).1]
    | release key => rfl
  rw [Terminal.report, hheld, Emulator.handleKey_of_idle h.up hr]

theorem readReports (h : t.Unattended) {reports : List KeyReport} (hidle : ∀ r ∈ reports, r.Idle) :
    t.readReports reports = { t with polls := t.polls.tail } := by
  have htail : Unattended { t with polls := t.polls.tail } :=
    ⟨h.up, h.held, fun poll hpoll => h.polls poll (List.mem_of_mem_tail hpoll)⟩
  rw [Terminal.readReports]
  induction reports with
  | nil => rfl
  | cons r reports ih =>
    obtain ⟨hr, hrest⟩ := List.forall_mem_cons.mp hidle
    rw [List.foldl_cons, htail.report hr]
    exact ih hrest

theorem nextPoll (h : t.Unattended) : ∃ reports, t.nextPoll = .ok reports ∧ ∀ r ∈ reports, r.Idle := by
  unfold Terminal.nextPoll
  cases hpolls : t.polls with
  | nil => exact ⟨[], rfl, by simp⟩
  | cons poll polls => exact h.polls poll (by simp [hpolls])

theorem releaseKeys (h : t.Unattended) : t.releaseKeys = t := by
  have htick : t.held.tick = ([], []) := by rw [h.held, HeldKeys.tick]
  rw [Terminal.releaseKeys, htick, ← h.held]
  rfl

theorem redraw (h : t.Unattended) : t.redraw.Unattended := by
  obtain ⟨-, hpolls, hheld, hemulator, -⟩ := redraw_keeps t
  exact ⟨hemulator ▸ h.up, hheld.trans h.held, hpolls ▸ h.polls⟩

/-- A turn updates the emulator and its picture and does nothing else to them. -/
theorem turn (h : t.Unattended) :
    t.turn.state.Unattended ∧
      (t.turn.state.emulator, t.turn.state.picture) =
        (Emulator.update (t.emulator, t.picture)).state ∧
      t.turn.result.map (fun _ => ()) =
        ((Emulator.update (t.emulator, t.picture)).result.map fun _ => ()).mapError
          fun _ => .outOfBounds := by
  obtain ⟨reports, hpoll, hidle⟩ := h.nextPoll
  have hkeypad := Emulator.keypad_update (t.emulator, t.picture)
  rw [Terminal.turn, hpoll]
  simp only [h.readReports hidle]
  generalize Emulator.update (t.emulator, t.picture) = outcome at hkeypad ⊢
  obtain ⟨⟨e, picture⟩, result⟩ := outcome
  have hnext : Unattended { t with polls := t.polls.tail, emulator := e, picture } := by
    refine ⟨fun slot => ?_, h.held, fun poll hpoll => h.polls poll (List.mem_of_mem_tail hpoll)⟩
    rw [← h.up slot, ← hkeypad]
  cases result with
  | error failure => exact ⟨hnext, rfl, rfl⟩
  | ok _ =>
    obtain ⟨-, -, -, hemulator, hpicture⟩ :=
      redraw_keeps { t with polls := t.polls.tail, emulator := e, picture }
    dsimp only
    rw [hnext.releaseKeys]
    exact ⟨hnext.redraw, Prod.ext hemulator hpicture, rfl⟩

end Unattended

/-- A terminal to which nobody attends, with the emulator that it runs and its picture. -/
structure Runs (state : Emulator × FrameBuffer) (t : Terminal) : Prop where
  state_eq : (t.emulator, t.picture) = state
  unattended : t.Unattended

/-- The loop of a terminal to which nobody attends and the loop without a display. -/
theorem lockstep_runs :
    Outcome.Lockstep Runs (fun _ => Interruption.outOfBounds) (·.1.isOver) Emulator.update isOver
      turn where
  stop_eq h := by rw [isOver, ← h.state_eq]
  state h _ := by
    obtain ⟨rfl, hunattended⟩ := h
    exact ⟨hunattended.turn.2.1, hunattended.turn.1⟩
  result h _ := by
    obtain ⟨rfl, hunattended⟩ := h
    exact hunattended.turn.2.2

/-- A run in a terminal to which nobody attends does the same to the emulator and its picture as a run
without a display, frame by frame and at the end.  Nobody attends to it if no key is down and the polls
report only that keys are released and that keys without a place on the keypad, other than the escape
key, are pressed.  Over a reachable machine it does not fail as long as the picture of the screen has
room in the buffer. -/
theorem unattended_run_eq_headless {e : Emulator}
    (hup : ∀ slot, e.machine.keypad.isPressed slot = false) {script : List (List KeyReport)}
    (hidle : ∀ reports ∈ script, ∀ r ∈ reports, r.isPress → r.key.keypad? = none ∧ r.key ≠ .escape)
    (limit : Option Nat) (holdFrames : Nat) :
    let t : Terminal := { emulator := e, polls := script.map .ok, holdFrames }
    (t.run limit).state.emulator = (Headless.run limit e).state ∧
    (t.run limit).result = (Headless.run limit e).result.mapError (fun _ => .outOfBounds) ∧
    (Outcome.visited isOver turn (Headless.framesLeft limit e) t).map
        (fun t => (t.emulator, t.picture)) =
      Outcome.visited (·.1.isOver) Emulator.update (Headless.framesLeft limit e) (e, .blank) ∧
    (e.machine.Reachable → 3 * e.machine.screen.pixels.size ≤ 6144 →
      (t.run limit).result = .ok ()) := by
  intro t
  have hstart : t.Unattended := by
    refine ⟨hup, rfl, fun poll hpoll => ?_⟩
    obtain ⟨reports, hreports, rfl⟩ := List.mem_map.mp hpoll
    exact ⟨reports, rfl, hidle reports hreports⟩
  have hruns : Runs (e, .blank) t := ⟨rfl, hstart⟩
  have hrun : Runs (Headless.loop limit (e, .blank)).state (t.run limit).state ∧
      (t.run limit).result = (Headless.run limit e).result.mapError fun _ => .outOfBounds :=
    lockstep_runs.repeatUntil (Headless.framesLeft limit e) hruns
  have hvisited : List.Forall₂ Runs
      (Outcome.visited (·.1.isOver) Emulator.update (Headless.framesLeft limit e) (e, .blank))
      (Outcome.visited isOver turn (Headless.framesLeft limit e) t) :=
    lockstep_runs.visited (Headless.framesLeft limit e) hruns
  refine ⟨congrArg Prod.fst hrun.1.state_eq, hrun.2, ?_, fun hm hroom => ?_⟩
  · rw [← List.forall₂_eq_eq_eq, List.forall₂_map_left_iff]
    exact hvisited.flip.imp fun _ _ h => h.state_eq
  · rw [hrun.2, Headless.result_run ⟨hm.sound, FrameBuffer.size_blank ▸ hroom⟩]
    rfl

/-- A program that never ends, while the space bar is pressed and a key is released that was not
down. -/
theorem unattended_run_eq_headless_space :
    ∃ m, Machine.new {} (.replicate 8 0) = .ok m ∧
      let e : Emulator := { machine := (m.load #[0x12, 0x00]).state, settings := {} }
      let t : Terminal :=
        { emulator := e, polls := [.ok [.press .space, .release .w]], holdFrames := 3 }
      (t.run (some 2)).state.emulator = (Headless.run (some 2) e).state ∧
        (t.run (some 2)).result = .ok () := by
  obtain ⟨m, hnew⟩ : ∃ m, Machine.new {} (.replicate 8 0) = .ok m := ⟨_, rfl⟩
  have hfresh := Machine.fresh_of_new hnew
  have hload : m.load #[0x12, 0x00] = _ := hfresh.load (by decide)
  have hup : ∀ slot, (m.load #[0x12, 0x00]).state.keypad.isPressed slot = false := by
    have hkeypad : (m.load #[0x12, 0x00]).state.keypad = {} := by
      rw [hload]
      exact hfresh.keypad_eq
    rw [hkeypad]
    exact Keypad.isPressed_new
  have hreached : (m.load #[0x12, 0x00]).state.Reachable :=
    .apply (.load #[0x12, 0x00]) (.new hnew) (show 2 < Machine.arrayLimit by decide)
  have hidle : ∀ reports ∈ [[KeyReport.press .space, .release .w]], ∀ r ∈ reports,
      r.isPress → r.key.keypad? = none ∧ r.key ≠ .escape := by decide
  let e : Emulator := { machine := (m.load #[0x12, 0x00]).state, settings := {} }
  obtain ⟨hemulator, -, -, hresult⟩ := unattended_run_eq_headless (e := e) hup hidle (some 2) 3
  have hfits : e.Fits .blank :=
    .of_sameShape hreached.sound (hfresh.sameShape_load #[0x12, 0x00]) FrameBuffer.size_blank
  exact ⟨m, hnew, hemulator, hresult hreached (FrameBuffer.size_blank ▸ hfits.room)⟩

end Terminal

end Chip8
