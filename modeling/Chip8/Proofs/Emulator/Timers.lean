import Chip8.Proofs.Emulator.LifeCycle

/-!
# Timers and beeps

A frame that is completed ticks the timers once, after its steps, and then beeps if sound is enabled and
the sound timer has not run out.  A frame in which a step fails does neither.  So a tone lasts for one
frame less than the sound timer was set to.

* `TimerName`: the delay timer and the sound timer, of which only one instruction each sets the value
  (`Instruction.timer_execute`).
* `Machine.timer_step` and `Machine.timer_cycles`: steps that do not set a timer leave it alone.
* `Emulator.runFrame_cases`: a frame that is completed and one that fails.  On a sound machine its steps
  are those of `Machine.Progress` (`Emulator.progress_of_completed`, `Emulator.progress_of_failed` and
  `Emulator.mem_stepping_iff`).
* `Emulator.begun`: the frames that requests of a frontend begin.  Nothing but these frames ticks or
  beeps (`Emulator.serve_cases`).
* `Emulator.timers_and_beeps`: what any requests do to the timers and how often they beep.
-/

namespace Chip8

/-- The name of a timer. -/
inductive TimerName where
  /-- The timer that programs can read. -/
  | delay
  /-- The timer that sounds the tone. -/
  | sound

/-- The instruction that sets the timer. -/
def TimerName.setter : TimerName → UInt8 → Instruction
  | delay => .setDelay
  | sound => .setSound

/-- The timer of the machine with the given name. -/
def Machine.timer (m : Machine) : TimerName → Timer
  | .delay => m.delay
  | .sound => m.sound

/-! ## Steps that leave a timer alone -/

/-- An instruction that does not set a timer leaves it alone. -/
theorem Instruction.timer_execute {name : TimerName} {i : Instruction}
    (hi : ∀ x, i ≠ name.setter x) (m : Machine) : (i.execute m).state.timer name = m.timer name := by
  cases i with
  | setDelay x =>
    cases name with
    | delay => exact absurd rfl (hi x)
    | sound => rfl
  | setSound x =>
    cases name with
    | delay => rfl
    | sound => exact absurd rfl (hi x)
  | ret =>
    simp only [execute]
    split <;> cases name <;> rfl
  | draw x y n =>
    simp only [execute, Machine.draw]
    split <;> cases name <;> rfl
  | waitKey x =>
    simp only [execute, Machine.awaitKey]
    split <;> cases name <;> rfl
  | storeDecimal x =>
    simp only [execute, Machine.writeBytes_eq]
    cases name <;> rfl
  | storeRegs x =>
    simp only [execute, Machine.passBlock_eq, Machine.writeBytes_eq]
    cases name <;> rfl
  | loadRegs x =>
    simp only [execute, Machine.passBlock_eq, Machine.readRegisters_eq]
    cases name <;> rfl
  | _ => cases name <;> rfl

namespace Machine

variable {name : TimerName}

theorem timer_perform {i : Instruction} (hi : ∀ x, i ≠ name.setter x) (m : Machine) :
    (m.perform i).state.timer name = m.timer name := by
  have hexecute := i.timer_execute hi { m with executing := true }
  have hmark (m : Machine) (executing : Bool) :
      { m with executing }.timer name = m.timer name := by
    cases name <;> rfl
  have hmoveOn (m : Machine) : (m.moveOn i).timer name = m.timer name := by
    rw [moveOn_eq]
    cases name <;> rfl
  rw [hmark] at hexecute
  unfold perform
  generalize i.execute { m with executing := true } = outcome at hexecute ⊢
  obtain ⟨m', (fault | _) | _⟩ := outcome
  · exact (hmark m' false).trans hexecute
  · exact hexecute
  · exact (hmoveOn _).trans ((hmark m' false).trans hexecute)

theorem timer_decode (m : Machine) (w : Opcode) :
    (m.decode w).state.timer name = m.timer name := by
  cases name <;> rfl

/-- A step that does not set a timer leaves it alone. -/
theorem timer_step {m : Machine} (h : ∀ x, m.peek.result ≠ .ok (some (name.setter x))) :
    m.step.state.timer name = m.timer name := by
  unfold step
  split
  · rfl
  split
  · rfl
  cases hopcode : m.nextOpcode with
  | none => cases name <;> rfl
  | some w =>
    have hdecode : (m.decode w).state.timer name = m.timer name := m.timer_decode w
    simp only [peek, hopcode] at h ⊢
    generalize m.decode w = outcome at hdecode h ⊢
    obtain ⟨m', _ | i⟩ := outcome
    · exact hdecode
    · have hi : ∀ x, i ≠ name.setter x := fun x hx => h x (by rw [hx]; rfl)
      exact (timer_perform hi m').trans hdecode

/-- A second look shows what the first one has shown. -/
theorem result_peek_peek (m : Machine) : m.peek.state.peek.result = m.peek.result := by
  rw [state_peek]
  cases hopcode : m.nextOpcode with
  | none => rfl
  | some w =>
    have hseeing : (m.seeing w).nextOpcode = some w := hopcode
    simp only [peek, hseeing, hopcode, decode_seeing]

theorem timer_cycle {m : Machine} (h : ∀ x, m.peek.result ≠ .ok (some (name.setter x))) (inspect : Bool) :
    (m.cycle inspect).state.timer name = m.timer name := by
  have hpeek : m.peek.state.timer name = m.timer name := by
    rw [state_peek]
    cases m.nextOpcode <;> cases name <;> rfl
  -- The step after a look executes what the look has shown, also if the decoder remembers what is not so.
  have hstep : m.peek.state.step.state.timer name = m.peek.state.timer name :=
    timer_step (m.result_peek_peek ▸ h)
  unfold cycle
  split
  · generalize m.peek = outcome at hpeek hstep ⊢
    obtain ⟨m', _ | next⟩ := outcome
    · exact hpeek
    · exact hstep.trans hpeek
  · exact timer_step h

/-- Cycles leave a timer alone if none of them sets it. -/
theorem timer_cycles {inspect : Bool} {n : Nat} {m : Machine}
    (h : ∀ m' ∈ Outcome.visited hasHalted (cycle inspect) n m,
      ∀ x, m'.peek.result ≠ .ok (some (name.setter x))) :
    (m.cycles inspect n).state.timer name = m.timer name := by
  induction n generalizing m with
  | zero => rfl
  | succ n ih =>
    cases hhalted : m.hasHalted with
    | true =>
      rw [cycles, Outcome.repeatUntil_of_stop (n + 1) hhalted]
      rfl
    | false =>
      rw [Outcome.visited_succ hhalted, List.forall_mem_cons] at h
      obtain ⟨hfirst, hrest⟩ := h
      have hcycle := timer_cycle hfirst inspect
      rw [cycles, Outcome.repeatUntil_succ hhalted]
      cases hresult : (m.cycle inspect).result with
      | error failure => exact hcycle
      | ok answer =>
        rw [hresult] at hrest
        exact (ih hrest).trans hcycle

end Machine

namespace Emulator

/-! ## One frame -/

/-- The machine as the steps of the next frame leave it, before any tick. -/
def stepped (e : Emulator) : Machine :=
  (e.machine.cycles e.settings.debug e.cyclesPerFrame).state

/-- The machines before the steps of the next frame, one for each step. -/
def stepping (e : Emulator) : List Machine :=
  Outcome.visited Machine.hasHalted (Machine.cycle e.settings.debug) e.cyclesPerFrame e.machine

/-- Whether the next frame ends with a beep: it is completed, sound is enabled and the sound timer is
not zero at the end. -/
def beepsAtEnd (e : Emulator) : Bool :=
  e.settings.sound && e.runFrame.result.isOk && e.runFrame.state.machine.sound.count != 0

/-- A frame is completed by a tick, or it fails where its steps end. -/
theorem runFrame_cases (e : Emulator) :
    e.runFrame = .done { e with machine := e.stepped }.finishFrame () ∨
      ∃ failure, e.runFrame = .fail { e with machine := e.stepped } failure := by
  unfold runFrame stepped
  obtain ⟨m, failure | _⟩ := e.machine.cycles e.settings.debug e.cyclesPerFrame
  · exact .inr ⟨failure, rfl⟩
  · exact .inl rfl

/-- The steps of a completed frame go on to the last one of the frame or to the one that halts the
machine. -/
theorem progress_of_completed {e : Emulator} (h : e.machine.Sound)
    (hcompleted : e.runFrame.result = .ok ()) :
    ∃ k, e.machine.Progress k e.stepped ∧
      (k = e.cyclesPerFrame ∨ k < e.cyclesPerFrame ∧ e.stepped.exitCode ≠ none) := by
  have hcycled := h.cycled e.settings.debug e.cyclesPerFrame
  unfold runFrame at hcompleted
  unfold stepped
  generalize e.machine.cycles e.settings.debug e.cyclesPerFrame = outcome at hcycled hcompleted ⊢
  cases hcycled with
  | completed hprogress hends => exact ⟨_, hprogress, hends⟩
  | failed => cases hcompleted

/-- A frame that fails ends with the first of its steps that is refused. -/
theorem progress_of_failed {e : Emulator} (h : e.machine.Sound) {failure : Failure}
    (hfailed : e.runFrame.result = .error failure) :
    ∃ k < e.cyclesPerFrame, ∃ m fault, e.machine.Progress k m ∧ m.step = .refuse e.stepped fault ∧
      failure = .fault fault := by
  have hcycled := h.cycled e.settings.debug e.cyclesPerFrame
  unfold runFrame at hfailed
  unfold stepped
  generalize e.machine.cycles e.settings.debug e.cyclesPerFrame = outcome at hcycled hfailed ⊢
  cases hcycled with
  | completed => cases hfailed
  | failed hprogress hk _ _ hstep =>
    cases hfailed
    exact ⟨_, hk, _, _, hprogress, hstep, rfl⟩

/-- The steps of a frame are those of machines that have not halted, no more than there are in a
frame. -/
theorem mem_stepping_iff {e : Emulator} (h : e.machine.Sound) {m : Machine} :
    m ∈ e.stepping ↔ ∃ k < e.cyclesPerFrame, e.machine.Progress k m ∧ m.exitCode = none :=
  h.mem_visited_iff

theorem settings_runFrame (e : Emulator) : e.runFrame.state.settings = e.settings := by
  rcases e.runFrame_cases with h | ⟨failure, h⟩ <;> rw [h] <;> rfl

theorem timer_runFrame {e : Emulator} (hcompleted : e.runFrame.result = .ok ()) (name : TimerName) :
    e.runFrame.state.machine.timer name = (e.stepped.timer name).tick := by
  rcases e.runFrame_cases with h | ⟨failure, h⟩
  · rw [h]
    cases name <;> rfl
  · rw [h] at hcompleted
    cases hcompleted

theorem beeps_runFrame (e : Emulator) :
    e.runFrame.state.beeper.beeps = e.beeper.beeps + if e.beepsAtEnd then 1 else 0 := by
  unfold beepsAtEnd
  rcases e.runFrame_cases with h | ⟨failure, h⟩
  · have hbeeper : e.runFrame.state.beeper =
        if e.stepped.sound.tick.isActive && e.settings.sound then e.beeper.beep else e.beeper := by
      rw [h]
      rfl
    have hcount : e.runFrame.state.machine.sound.count = e.stepped.sound.tick.count := by
      rw [h]
      rfl
    have hok : e.runFrame.result.isOk = true := by
      rw [h]
      rfl
    rw [hbeeper, hcount, hok, Timer.isActive]
    cases e.settings.sound with
    | false => simp
    | true => by_cases hzero : e.stepped.sound.tick.count = 0 <;> simp [hzero, Beeper.beep]
  · rw [h]
    simp [Outcome.fail, Except.isOk, Except.toBool]

/-- A completed frame that does not set a timer counts it down by one. -/
theorem count_runFrame {e : Emulator} (name : TimerName)
    (hcompleted : e.runFrame.result = .ok ())
    (hunset : ∀ m ∈ e.stepping, ∀ x, m.peek.result ≠ .ok (some (name.setter x))) :
    (e.runFrame.state.machine.timer name).count.toNat = (e.machine.timer name).count.toNat - 1 := by
  have hstepped : e.stepped.timer name = e.machine.timer name := Machine.timer_cycles hunset
  rw [timer_runFrame hcompleted, hstepped, Timer.toNat_count_tick]

/-- A completed frame that does not set the sound timer beeps unless the timer has run out at its end. -/
theorem beepsAtEnd_eq {e : Emulator} (hcompleted : e.runFrame.result = .ok ())
    (hunset : ∀ m ∈ e.stepping, ∀ x, m.peek.result ≠ .ok (some (.setSound x))) :
    e.beepsAtEnd = (e.settings.sound && decide (1 < e.machine.sound.count.toNat)) := by
  have hcount : e.runFrame.state.machine.sound.count.toNat = e.machine.sound.count.toNat - 1 :=
    count_runFrame .sound hcompleted hunset
  have hzero : e.runFrame.state.machine.sound.count = 0 ↔ ¬ 1 < e.machine.sound.count.toNat := by
    rw [← UInt8.toNat_inj, hcount, UInt8.toNat_zero]
    omega
  have hbool : (e.runFrame.state.machine.sound.count != 0) =
      decide (1 < e.machine.sound.count.toNat) := by
    rw [Bool.eq_iff_iff, bne_iff_ne, ne_eq, hzero, not_not, decide_eq_true_iff]
  have hok : e.runFrame.result.isOk = true := by rw [hcompleted]; rfl
  rw [beepsAtEnd, hok, hbool, Bool.and_true]

/-! ## Requests -/

/-- The emulators agree in their timers, their beeps and their settings. -/
structure SameTones (e e' : Emulator) : Prop where
  timer (name : TimerName) : e'.machine.timer name = e.machine.timer name
  beeper : e'.beeper = e.beeper
  settings : e'.settings = e.settings

/-- Whether the request runs a frame. -/
def Request.runs (e : Emulator) : Request → Bool
  | frame => true
  | update _ => !e.isOver
  | move .. => false

/-- The emulators before the frames that requests, one after the other, run. -/
def begun : List Request → Emulator → List Emulator
  | [], _ => []
  | request :: requests, e =>
    (if request.runs e then [e] else []) ++ begun requests (e.serve request).1

/-- No step of the frames executes an instruction that sets the timer.  What a step executes is what a
look ahead shows (`Machine.peek_eq_some_iff`). -/
def Unset (name : TimerName) (frames : List Emulator) : Prop :=
  ∀ f ∈ frames, ∀ m ∈ f.stepping, ∀ x, m.peek.result ≠ .ok (some (name.setter x))

theorem sameTones_handleKey (e : Emulator) (key : Key) (down : Bool) :
    SameTones e (e.handleKey key down) := by
  unfold handleKey
  split
  · exact ⟨fun _ => rfl, rfl, rfl⟩
  · split
    · refine ⟨fun name => ?_, rfl, rfl⟩
      rw [Machine.setKey]
      split <;> cases name <;> rfl
    · exact ⟨fun _ => rfl, rfl, rfl⟩

/-- An update of an emulator that is not over leaves what its frame leaves. -/
theorem sameTones_advance {e : Emulator} (hover : e.isOver = false) :
    SameTones e.runFrame.state e.advance.state := by
  rw [advance, if_neg (by simp [hover])]
  obtain ⟨e', (fault | _) | _⟩ := e.runFrame
  · exact ⟨fun name => by cases name <;> rfl, rfl, rfl⟩
  · exact ⟨fun _ => rfl, rfl, rfl⟩
  · exact ⟨fun name => by cases name <;> rfl, rfl, rfl⟩

/-- A request runs a frame, or it does not and leaves timers, beeps and settings alone. -/
theorem serve_cases (e : Emulator) (request : Request) :
    (request.runs e = true ∧ SameTones e.runFrame.state (e.serve request).1) ∨
      (request.runs e = false ∧ SameTones e (e.serve request).1) := by
  cases request with
  | frame => exact .inl ⟨rfl, ⟨fun _ => rfl, rfl, rfl⟩⟩
  | update buffer =>
    rw [fst_serve_update, Request.runs]
    cases hover : e.isOver with
    | true =>
      rw [advance, if_pos hover]
      exact .inr ⟨rfl, ⟨fun _ => rfl, rfl, rfl⟩⟩
    | false => exact .inl ⟨rfl, sameTones_advance hover⟩
  | move key down => exact .inr ⟨rfl, e.sameTones_handleKey key down⟩

theorem begun_cons_of_runs {e : Emulator} {request : Request} (h : request.runs e = true)
    (requests : List Request) :
    begun (request :: requests) e = e :: begun requests (e.serve request).1 := by
  rw [begun, if_pos h]
  rfl

theorem begun_cons_of_not_runs {e : Emulator} {request : Request} (h : request.runs e = false)
    (requests : List Request) :
    begun (request :: requests) e = begun requests (e.serve request).1 := by
  rw [begun, h]
  rfl

/-- The frames of an emulator over a sound machine begin with one. -/
theorem sound_begun {e : Emulator} (h : e.machine.Sound) (requests : List Request) :
    ∀ f ∈ begun requests e, f.machine.Sound := by
  induction requests generalizing e with
  | nil => simp [begun]
  | cons request requests ih =>
    have hrest := ih (sound_serve h request)
    cases hruns : request.runs e with
    | true =>
      rw [begun_cons_of_runs hruns]
      exact List.forall_mem_cons.mpr ⟨h, hrest⟩
    | false =>
      rw [begun_cons_of_not_runs hruns]
      exact hrest

/-- Every beep is the end of a frame. -/
theorem beeps_serveAll (requests : List Request) (e : Emulator) :
    (serveAll requests e).1.beeper.beeps =
      e.beeper.beeps + (begun requests e).countP beepsAtEnd := by
  induction requests generalizing e with
  | nil => rfl
  | cons request requests ih =>
    rw [serveAll_cons, ih]
    rcases e.serve_cases request with ⟨hruns, hsame⟩ | ⟨hruns, hsame⟩
    · rw [begun_cons_of_runs hruns, List.countP_cons, hsame.beeper, beeps_runFrame]
      omega
    · rw [begun_cons_of_not_runs hruns, hsame.beeper]

section Completed

variable {requests : List Request} {e : Emulator}
  (hcompleted : ∀ f ∈ begun requests e, f.runFrame.result = .ok ())

include hcompleted

/-- Completed frames that do not set a timer count it down by their number. -/
theorem count_serveAll (name : TimerName) (hunset : Unset name (begun requests e)) :
    ((serveAll requests e).1.machine.timer name).count.toNat =
      (e.machine.timer name).count.toNat - (begun requests e).length := by
  -- Requests that run no frame drop out; each of the others begins with one tick less.
  induction requests generalizing e with
  | nil => rfl
  | cons request requests ih =>
    rw [serveAll_cons]
    rcases e.serve_cases request with ⟨hruns, hsame⟩ | ⟨hruns, hsame⟩
    · rw [begun_cons_of_runs hruns] at hcompleted hunset ⊢
      rw [List.forall_mem_cons] at hcompleted
      rw [Unset, List.forall_mem_cons] at hunset
      rw [ih hcompleted.2 hunset.2, hsame.timer, count_runFrame name hcompleted.1 hunset.1,
        List.length_cons]
      omega
    · rw [begun_cons_of_not_runs hruns] at hcompleted hunset ⊢
      rw [ih hcompleted hunset, hsame.timer]

/-- Completed frames that do not set the sound timer beep at the end of each of them before the one in
which it runs out. -/
theorem countP_beepsAtEnd (hunset : Unset .sound (begun requests e)) :
    (begun requests e).countP beepsAtEnd =
      if e.settings.sound then min (begun requests e).length (e.machine.sound.count.toNat - 1)
      else 0 := by
  induction requests generalizing e with
  | nil => simp [begun]
  | cons request requests ih =>
    rcases e.serve_cases request with ⟨hruns, hsame⟩ | ⟨hruns, hsame⟩
    · rw [begun_cons_of_runs hruns] at hcompleted hunset ⊢
      rw [List.forall_mem_cons] at hcompleted
      rw [Unset, List.forall_mem_cons] at hunset
      have hsettings : (e.serve request).1.settings = e.settings :=
        hsame.settings.trans e.settings_runFrame
      have hcount : (e.serve request).1.machine.sound.count.toNat =
          e.machine.sound.count.toNat - 1 :=
        (congrArg (·.count.toNat) (hsame.timer .sound)).trans
          (count_runFrame .sound hcompleted.1 hunset.1)
      rw [List.countP_cons, ih hcompleted.2 hunset.2, hsettings, hcount, List.length_cons,
        beepsAtEnd_eq hcompleted.1 hunset.1]
      cases e.settings.sound with
      | false => rfl
      | true =>
        simp only [if_true, Bool.true_and, decide_eq_true_eq]
        split <;> omega
    · rw [begun_cons_of_not_runs hruns] at hcompleted hunset ⊢
      have hsound : (e.serve request).1.machine.sound = e.machine.sound := hsame.timer .sound
      rw [ih hcompleted hunset, hsame.settings, hsound]

end Completed

/-! ## The result -/

/-- A frame that is completed ends with each timer at what its steps have left, less one, and beeps once
if sound is enabled and the sound timer is not zero then; a frame that fails does nothing but its steps.
Over any requests of a frontend there is a beep for each frame that ends with one and no other.  If all
frames are completed and none of their steps sets a timer, it is counted down by their number, and there
is a beep at the end of each frame before the one in which the sound timer runs out.

On a sound machine the steps of a frame are steps of the machine, one behind the other.  A completed
frame has made them up to its last one or the one that halts the machine, a frame that fails ends with
one that is refused, and every frame that the requests run begins with a sound machine again. -/
theorem timers_and_beeps (e : Emulator) (requests : List Request) :
    let frames := begun requests e
    let after := (serveAll requests e).1
    (∀ f : Emulator,
      (f.runFrame.result = .ok () →
        f.runFrame.state.machine.delay.count.toNat = f.stepped.delay.count.toNat - 1 ∧
        f.runFrame.state.machine.sound.count.toNat = f.stepped.sound.count.toNat - 1 ∧
        f.runFrame.state.beeper.beeps = f.beeper.beeps +
          if f.settings.sound ∧ f.runFrame.state.machine.sound.count ≠ 0 then 1 else 0) ∧
      ∀ failure, f.runFrame.result = .error failure →
        f.runFrame.state = { f with machine := f.stepped }) ∧
    (∀ f : Emulator, f.machine.Sound →
      (f.runFrame.result = .ok () → ∃ k, f.machine.Progress k f.stepped ∧
        (k = f.cyclesPerFrame ∨ k < f.cyclesPerFrame ∧ f.stepped.exitCode ≠ none)) ∧
      (∀ failure, f.runFrame.result = .error failure →
        ∃ k < f.cyclesPerFrame, ∃ m fault, f.machine.Progress k m ∧
          m.step = .refuse f.stepped fault ∧ failure = .fault fault) ∧
      ∀ m, m ∈ f.stepping ↔ ∃ k < f.cyclesPerFrame, f.machine.Progress k m ∧ m.exitCode = none) ∧
    (e.machine.Sound → ∀ f ∈ frames, f.machine.Sound) ∧
    after.beeper.beeps = e.beeper.beeps + frames.countP beepsAtEnd ∧
    ((∀ f ∈ frames, f.runFrame.result = .ok ()) →
      (Unset .delay frames →
        after.machine.delay.count.toNat = e.machine.delay.count.toNat - frames.length) ∧
      (Unset .sound frames →
        after.machine.sound.count.toNat = e.machine.sound.count.toNat - frames.length ∧
        after.beeper.beeps = e.beeper.beeps +
          if e.settings.sound then min frames.length (e.machine.sound.count.toNat - 1) else 0)) := by
  intro frames after
  refine ⟨fun f => ⟨fun hcompleted => ⟨?_, ?_, ?_⟩, fun failure hfailed => ?_⟩,
    fun f h => ⟨progress_of_completed h, fun _ => progress_of_failed h, fun _ => mem_stepping_iff h⟩,
    fun h => sound_begun h requests, beeps_serveAll requests e,
    fun hcompleted => ⟨fun hunset => ?_, fun hunset => ⟨?_, ?_⟩⟩⟩
  · rw [← Timer.toNat_count_tick]
    exact congrArg (·.count.toNat) (timer_runFrame hcompleted .delay)
  · rw [← Timer.toNat_count_tick]
    exact congrArg (·.count.toNat) (timer_runFrame hcompleted .sound)
  · rw [beeps_runFrame, beepsAtEnd, hcompleted]
    simp [Except.isOk, Except.toBool]
  · rcases f.runFrame_cases with h | ⟨failure', h⟩
    · rw [h] at hfailed
      cases hfailed
    · rw [h]
      rfl
  · exact count_serveAll hcompleted .delay hunset
  · exact count_serveAll hcompleted .sound hunset
  · rw [← countP_beepsAtEnd hcompleted hunset]
    exact beeps_serveAll requests e

/-- The machine stands at a jump to where it stands. -/
structure Spins (m : Machine) : Prop where
  sound : m.Sound
  running : m.exitCode = none
  jump : ∃ w, m.nextOpcode = some w ∧ w.decode = .ok (.jump m.pc)

namespace Spins

theorem withTimers {m : Machine} (h : Spins m) (delay sound : Timer) :
    Spins { m with delay, sound } :=
  ⟨{ h.sound with }, h.running, h.jump⟩

theorem step {m : Machine} (h : Spins m) : ∃ m', m.step = .done m' () ∧ Spins m' := by
  obtain ⟨w, hopcode, hdecode⟩ := h.jump
  have hstep := h.sound.step_of_execute h.running hopcode hdecode rfl
  have hsound := h.sound.step
  rw [hstep] at hsound
  exact ⟨_, hstep, hsound, h.running, w, hopcode, hdecode⟩

theorem progress {k : Nat} {m m' : Machine} (h : Spins m) (hprogress : m.Progress k m') :
    Spins m' := by
  induction hprogress with
  | refl => exact h
  | step _ hstep _ ih =>
    obtain ⟨m₁, hjump, hspins⟩ := h.step
    rw [hstep] at hjump
    cases hjump
    exact ih hspins

/-- A frame of a machine that spins is completed and sets no timer. -/
theorem runFrame {e : Emulator} (h : Spins e.machine) :
    e.runFrame.result = .ok () ∧ Spins e.runFrame.state.machine ∧
      ∀ name : TimerName, ∀ m ∈ e.stepping, ∀ x, m.peek.result ≠ .ok (some (name.setter x)) := by
  rcases e.runFrame_cases with hrun | ⟨failure, hrun⟩
  · have hcompleted : e.runFrame.result = .ok () := by rw [hrun]; rfl
    refine ⟨hcompleted, ?_, fun name m hm x hpeek => ?_⟩
    · obtain ⟨k, hprogress, -⟩ := progress_of_completed h.sound hcompleted
      rw [hrun]
      exact (h.progress hprogress).withTimers _ _
    · obtain ⟨k, -, hprogress, -⟩ := (mem_stepping_iff h.sound).mp hm
      have hspins := h.progress hprogress
      obtain ⟨w, hopcode, hdecode⟩ := hspins.jump
      have hjump : m.peek.result = .ok (some (.jump m.pc)) := by
        simp only [Machine.result_peek hspins.sound, hopcode, hdecode]
        rfl
      rw [hjump] at hpeek
      cases name <;> cases hpeek
  · have hfailed : e.runFrame.result = .error failure := by rw [hrun]; rfl
    obtain ⟨k, -, m, fault, hprogress, hrefused, -⟩ := progress_of_failed h.sound hfailed
    obtain ⟨m', hstep, -⟩ := (h.progress hprogress).step
    rw [hstep] at hrefused
    cases hrefused

theorem begun {e : Emulator} (h : Spins e.machine) (n : Nat) :
    (begun (.replicate n .frame) e).length = n ∧
      ∀ f ∈ begun (.replicate n .frame) e, Spins f.machine := by
  induction n generalizing e with
  | zero => exact ⟨rfl, by simp [Emulator.begun]⟩
  | succ n ih =>
    obtain ⟨hlength, hspins⟩ := ih h.runFrame.2.1
    rw [List.replicate_succ, begun_cons_of_runs rfl]
    exact ⟨congrArg (· + 1) hlength, List.forall_mem_cons.mpr ⟨h, hspins⟩⟩

end Spins

/-- A program that jumps to itself.  While it runs for four frames the delay timer counts down by four
and the sound timer, which is at three, runs out with two beeps. -/
theorem timers_and_beeps_spinning :
    ∃ m : Machine, (m.load #[0x12, 0x00]).result = .ok () ∧
      let machine := { (m.load #[0x12, 0x00]).state with delay := ⟨5⟩, sound := ⟨3⟩ }
      let e : Emulator := { machine, settings := { sound := true } }
      let after := (serveAll (.replicate 4 .frame) e).1
      after.machine.delay.count.toNat = 1 ∧ after.machine.sound.count.toNat = 0 ∧
        after.beeper.beeps = 2 := by
  obtain ⟨m, hnew⟩ : ∃ m, Machine.new {} (.replicate 8 0) = .ok m := ⟨_, rfl⟩
  have hfresh := Machine.fresh_of_new hnew
  have hload : m.load #[0x12, 0x00] = _ := hfresh.load (by decide)
  have hopcode : (m.load #[0x12, 0x00]).state.nextOpcode = some (.ofBytes 0x12 0x00) :=
    hfresh.nextOpcode_load (by decide) rfl rfl (by decide)
  have hlegal : #[(0x12 : UInt8), 0x00].size < Machine.arrayLimit := by decide
  have hreached : (m.load #[0x12, 0x00]).state.Reachable :=
    .apply (.load #[0x12, 0x00]) (.new hnew) hlegal
  have hpc : (m.load #[0x12, 0x00]).state.pc = 0x200 := by
    rw [hload]
    rfl
  have hspins : Spins (m.load #[0x12, 0x00]).state := by
    refine ⟨hreached.sound, ?_, _, hopcode, ?_⟩
    · rw [hload]
      rfl
    · rw [hpc]
      exact Opcode.decode_of_nibbles_eq rfl
  refine ⟨m, by rw [hload]; rfl, ?_⟩
  intro machine e after
  obtain ⟨hlength, hbegun⟩ := Spins.begun (e := e) (hspins.withTimers ⟨5⟩ ⟨3⟩) 4
  obtain ⟨-, -, -, -, hall⟩ := timers_and_beeps e (.replicate 4 .frame)
  obtain ⟨hdelay, hsound⟩ := hall fun f hf => (hbegun f hf).runFrame.1
  rw [hlength] at hdelay hsound
  have hunset (name : TimerName) : Unset name (begun (.replicate 4 .frame) e) :=
    fun f hf => (hbegun f hf).runFrame.2.2 name
  exact ⟨hdelay (hunset .delay), hsound (hunset .sound)⟩

end Emulator

end Chip8
