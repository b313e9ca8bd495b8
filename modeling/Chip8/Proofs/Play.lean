import Chip8.Play
import Chip8.Proofs.Emulator.Pictures
import Chip8.Proofs.Emulator.Schedule
import Chip8.Proofs.Machine.Loading

/-!
# What playing a program leads to

Playing a program without a display ends with an exit code or an error.  Which of them follows from the
configuration, the size of the program and the schedule of steps and ticks from the loaded program on.

* `machine_cases`: whether there is a machine and whether it has room for the program.
* `StoppedAt`: what is told of a run that was stopped by a step of the schedule.
* `headless_of_fits`: the run of a program that could be loaded.
-/

namespace Chip8.Play

/-! ## Making a machine and loading the program -/

/-- There is no machine of the configuration, or the program does not fit, or it is loaded. -/
theorem machine_cases (config : Config) (entropy : Random.Key) (program : Array UInt8) :
    (config.flaw? ≠ none ∧ ∃ fault, machine config entropy program = .error (.invalidConfig fault)) ∨
    (config.flaw? = none ∧ config.memorySize < config.loadAddress.toNat + program.size ∧
      ∃ fault, machine config entropy program = .error (.notLoaded fault)) ∨
    (config.flaw? = none ∧ config.loadAddress.toNat + program.size ≤ config.memorySize ∧
      ∃ m m₀, Machine.new config entropy = .ok m ∧ m.load program = .done m₀ () ∧
        machine config entropy program = .ok m₀) := by
  unfold machine
  cases hnew : Machine.new config entropy with
  | error fault =>
    refine .inl ⟨fun hflaw => ?_, fault, rfl⟩
    obtain ⟨m, hmade⟩ := Machine.exists_new_eq_ok_iff.mpr hflaw
    rw [hnew] at hmade
    cases hmade
  | ok m =>
    have hflaw := Machine.exists_new_eq_ok_iff.mp ⟨m, hnew⟩
    have hfresh := Machine.fresh_of_new hnew
    by_cases hfits : config.loadAddress.toNat + program.size ≤ config.memorySize
    · have hload := hfresh.load hfits
      exact .inr (.inr ⟨hflaw, hfits, m, _, rfl, hload, by simp only [hload]; rfl⟩)
    · have hlarge : m.memory.size < m.config.loadAddress.toNat + program.size := by
        rw [hfresh.size_memory, hfresh.config_eq]
        omega
      have hload : m.load program = _ := Machine.loadAt_of_lt hlarge
      exact .inr (.inl ⟨hflaw, by omega, _, by simp only [hload]; rfl⟩)

/-! ## The run -/

/-- The schedule of a run up to a limit of frames. -/
def schedule (settings : Emulator.Settings) (limit : Nat) : Schedule where
  perFrame := max 1 (settings.instructionsPerSecond.toNat / 60)
  limit

/-- The run was stopped by the step of the schedule at the point `p`.  The error names the address of
the instruction, whose two bytes are in memory there, and the machine refuses to run it. -/
structure StoppedAt (played : Played) (p : Schedule.Point) (fault : Fault) : Prop where
  code : ∃ error, played.code = .error error ∧ error.fault? = some fault ∧
    error.chain = ["program stopped at " ++ Text.Hex.marked 3 p.machine.pc.toNat, fault.message]
  emulator : ∃ e, played.emulator = some e ∧ e.machine.pc = p.machine.pc ∧
    e.machine.memory = p.machine.memory
  bytes : ∃ high low, p.machine.memory[p.machine.pc.toNat]? = some high ∧
    p.machine.memory[p.machine.pc.toNat + 1]? = some low ∧
    p.machine.Refuses (.ofBytes high low) (.fault fault)

/-- The run of a program that could be loaded ends with exit code 0 where the schedule is over, or was
stopped where a step of the schedule fails. -/
theorem headless_of_fits {config : Config} {entropy : Random.Key} {program : Array UInt8}
    {m m₀ : Machine} (hnew : Machine.new config entropy = .ok m)
    (hload : m.load program = .done m₀ ()) (hmachine : machine config entropy program = .ok m₀)
    (settings : Emulator.Settings) (limit : Nat) :
    let played := headless config entropy settings (some limit) program
    let s := schedule settings limit
    ∃ q, s.Reaches { machine := m₀ } q ∧
      (s.Over q ∧ played.code = .ok 0 ∨
        ∃ fault, s.Fails q (.fault fault) ∧ StoppedAt played q fault) := by
  intro played s
  have hfresh := Machine.fresh_of_new hnew
  have hsound : m₀.Sound := hfresh.sound.of_loadAt hload
  have hrunning : m₀.exitCode = none := by rw [Machine.eq_reset_of_loadAt hload]; rfl
  have hshape : Screen.standard.SameShape m₀.screen := by
    have hloaded := hfresh.sameShape_load program
    rwa [hload] at hloaded
  let e : Emulator := { machine := m₀, settings, beeper := { journals := true } }
  have hat : Emulator.At s e { machine := m₀ } :=
    ⟨hsound, ⟨hsound, .inl hrunning⟩, rfl, rfl, rfl, rfl, rfl, rfl⟩
  obtain ⟨hok, q, hreaches, hends⟩ := hat.run (n := limit) (Nat.zero_add limit)
  have hframes : Headless.run (some limit) e =
      .repeatUntil Emulator.isOver Emulator.advance limit e :=
    Headless.run_eq_advance (.of_sameShape hsound hshape FrameBuffer.size_blank) (some limit)
  have hq := hreaches.sound hat.point
  have hemulator : emulator config entropy settings program = .ok e := by
    rw [emulator, hmachine]
    rfl
  generalize hrun : Outcome.repeatUntil Emulator.isOver Emulator.advance limit e = outcome
    at hok hends
  obtain ⟨e', result⟩ := outcome
  cases hok
  have hplayed : played = { emulator := some e', code := verdict e' } := by
    simp only [played, headless, hemulator]
    rw [hframes, hrun]
  refine ⟨q, hreaches, ?_⟩
  obtain ⟨hat', hover⟩ | hfailed := hends
  · have hfault : e'.fault = none := hat'.fault
    have hexit : e'.machine.exitCode = q.machine.exitCode :=
      Machine.exitCode_eq_of_view_eq hat'.view
    refine .inl ⟨hover, ?_⟩
    rw [hplayed]
    simp only [verdict, hfault, hexit]
    rcases hq.exitCode with hnone | hzero
    · rw [hnone]
      rfl
    · rw [hzero]
      rfl
  · obtain ⟨fault, hfault, hfails⟩ := hfailed.fault
    dsimp only at hfault
    have hpc := Machine.pc_eq_of_view_eq hfailed.view
    have hmemory := Machine.memory_eq_of_view_eq hfailed.view
    obtain ⟨-, w, hopcode, hrefuses⟩ := (Machine.step_eq_error_iff hq.machine).mp hfails.result
    obtain ⟨high, low, hhigh, hlow, rfl, -⟩ := Machine.nextOpcode_eq_some_iff.mp hopcode
    refine .inr ⟨fault, hfails, ⟨.stopped e'.machine.pc fault, ?_, rfl, ?_⟩, ⟨e', ?_, hpc, hmemory⟩,
      high, low, hhigh, hlow, hrefuses⟩
    · rw [hplayed]
      simp only [verdict, hfault]
    · rw [← hpc]
      rfl
    · rw [hplayed]

/-! ## The outcome -/

/-- No error of a run that was stopped looks like one of those before the run. -/
theorem StoppedAt.head_ne {played : Played} {p : Schedule.Point} {fault : Fault}
    (h : StoppedAt played p fault) {error : Error} (hcode : played.code = .error error)
    {message : String} (hmessage : message.toList.head? ≠ some 'p') :
    error.chain.head? ≠ some message := by
  obtain ⟨error', hcode', -, hchain⟩ := h.code
  rw [hcode] at hcode'
  cases hcode'
  rw [hchain]
  intro hhead
  cases hhead
  simp [String.toList_append] at hmessage

/-- What playing a program without a display up to a limit of frames leads to, for every configuration,
all settings and every program.  It fails for want of a machine if the configuration is invalid, and
otherwise for want of room if the program would run over the end of memory.  Otherwise it fails exactly
if a step of the schedule fails: then the schedule has come to its end, the error names the fault of
that step and the address of the instruction, and the instruction is one that the machine refuses to
run.  In all other cases the exit code is 0. -/
theorem headless_fails_iff (config : Config) (entropy : Random.Key)
    (settings : Emulator.Settings) (limit : Nat) (program : Array UInt8) :
    let played := headless config entropy settings (some limit) program
    let s := schedule settings limit
    let valid := 80 ≤ config.loadAddress.toNat ∧ config.loadAddress.toNat < config.memorySize ∧
      config.memorySize ≤ 65536
    ((∃ error, played.code = .error error ∧
        error.chain.head? = some "invalid machine configuration") ↔ ¬ valid) ∧
    (valid → ((∃ error, played.code = .error error ∧
        error.chain.head? = some "failed to load program") ↔
          config.memorySize < config.loadAddress.toNat + program.size)) ∧
    (valid → config.loadAddress.toNat + program.size ≤ config.memorySize →
      ∃ m m₀, Machine.new config entropy = .ok m ∧ m.load program = .done m₀ () ∧
        ((∃ error, played.code = .error error) ↔
          ∃ p failure, s.Reaches { machine := m₀ } p ∧ s.Fails p failure) ∧
        (∀ p failure, s.Reaches { machine := m₀ } p → s.Fails p failure →
          (∀ p' failure', s.Reaches { machine := m₀ } p' → s.Fails p' failure' →
            p' = p ∧ failure' = failure) ∧
          ∃ fault, failure = .fault fault ∧ StoppedAt played p fault) ∧
        ((∀ p failure, s.Reaches { machine := m₀ } p → ¬ s.Fails p failure) →
          played.code = .ok 0)) := by
  intro played s valid
  have hvalid : config.flaw? = none ↔ valid := Config.flaw?_eq_none_iff
  have hcode {error : Error} (hmachine : machine config entropy program = .error error) :
      played.code = .error error := by
    simp only [played, headless, emulator, hmachine]
    rfl
  obtain ⟨hflaw, fault, hmachine⟩ | ⟨hflaw, hlarge, fault, hmachine⟩ |
    ⟨hflaw, hfits, m, m₀, hnew, hload, hmachine⟩ := machine_cases config entropy program
  · have hinvalid : ¬ valid := mt hvalid.mpr hflaw
    refine ⟨iff_of_true ⟨_, hcode hmachine, rfl⟩ hinvalid, fun h => absurd h hinvalid,
      fun h => absurd h hinvalid⟩
  · refine ⟨iff_of_false ?_ (not_not.mpr (hvalid.mp hflaw)),
      fun _ => iff_of_true ⟨_, hcode hmachine, rfl⟩ hlarge, fun _ hfits => by omega⟩
    rintro ⟨error, herror, hhead⟩
    rw [hcode hmachine, Except.error.injEq] at herror
    subst herror
    simp [Error.chain] at hhead
  · have hmade := hvalid.mp hflaw
    obtain ⟨q, hreaches, ⟨hover, hzero⟩ | ⟨fault, hfails, hstopped⟩⟩ :=
      headless_of_fits hnew hload hmachine settings limit
    · have hnever (p : Schedule.Point) (failure : Failure) (hp : s.Reaches { machine := m₀ } p) :
          ¬ s.Fails p failure := fun hfails => by
        obtain rfl := Schedule.eq_of_last hp hreaches hfails.last hover.last
        exact hover.not_fails hfails
      have hnone (error : Error) : played.code ≠ .error error := by
        rw [show played.code = .ok 0 from hzero]
        exact nofun
      refine ⟨iff_of_false ?_ (not_not.mpr hmade), fun _ => iff_of_false ?_ (by omega),
        fun _ _ => ⟨m, m₀, hnew, hload, iff_of_false ?_ ?_, ?_, fun _ => hzero⟩⟩
      · rintro ⟨error, herror, -⟩
        exact hnone error herror
      · rintro ⟨error, herror, -⟩
        exact hnone error herror
      · rintro ⟨error, herror⟩
        exact hnone error herror
      · rintro ⟨p, failure, hp, hfails⟩
        exact hnever p failure hp hfails
      · intro p failure hp hfails
        exact absurd hfails (hnever p failure hp)
    · obtain ⟨error, herror, -⟩ := hstopped.code
      have honly {p : Schedule.Point} {failure : Failure} (hp : s.Reaches { machine := m₀ } p)
          (h : s.Fails p failure) : p = q ∧ failure = .fault fault := by
        obtain rfl := Schedule.eq_of_last hp hreaches h.last hfails.last
        have hresult := h.result.symm.trans hfails.result
        rw [Except.error.injEq] at hresult
        exact ⟨rfl, hresult⟩
      refine ⟨iff_of_false ?_ (not_not.mpr hmade), fun _ => iff_of_false ?_ (by omega),
        fun _ _ => ⟨m, m₀, hnew, hload, iff_of_true ⟨error, herror⟩ ⟨q, _, hreaches, hfails⟩, ?_,
          fun hnever => absurd hfails (hnever q _ hreaches)⟩⟩
      · rintro ⟨error', herror', hhead⟩
        exact hstopped.head_ne herror' (by decide) hhead
      · rintro ⟨error', herror', hhead⟩
        exact hstopped.head_ne herror' (by decide) hhead
      · intro p failure hp h
        obtain ⟨rfl, rfl⟩ := honly hp h
        exact ⟨fun p' failure' hp' h' => honly hp' h', fault, rfl, hstopped⟩

/-- A program whose first opcode is unknown. -/
theorem headless_fails_iff_unknown :
    let played := headless {} (.replicate 8 0) {} (some 10) #[0x01, 0x23]
    ∃ error, played.code = .error error ∧ error.fault? = some (.unknownOpcode 0x0123) ∧
      error.chain = ["program stopped at 0x200", "unknown instruction [01, 23]"] := by
  obtain ⟨m, m₀, hnew, hload, -, hstops, -⟩ :=
    (headless_fails_iff {} (.replicate 8 0) {} 10 #[0x01, 0x23]).2.2 (by decide) (by decide)
  have hfresh := Machine.fresh_of_new hnew
  have hm₀ : m₀ = (m.load #[0x01, 0x23]).state := by rw [hload]; rfl
  have hreset : m₀ = _ := Machine.eq_reset_of_loadAt hload
  have hsound : m₀.Sound := hfresh.sound.of_loadAt hload
  have hopcode : m₀.nextOpcode = some (.ofBytes 0x01 0x23) := by
    rw [hm₀]
    exact hfresh.nextOpcode_load (by decide) rfl rfl (by decide)
  have hrunning : m₀.exitCode = none := by rw [hreset]; rfl
  have hpc : m₀.pc = 0x200 := by
    rw [hreset]
    exact congrArg Config.loadAddress hfresh.config_eq
  have hunknown : (Opcode.ofBytes 0x01 0x23).decode = .error (.unknownOpcode 0x0123) := by
    decide +kernel
  have hstep := hsound.step_of_decode_eq_error hrunning hopcode hunknown
  have hfails : (schedule {} 10).Fails { machine := m₀ } (.fault (.unknownOpcode 0x0123)) :=
    ⟨show 0 < 10 by decide, show 0 < max 1 ((500 : UInt32).toNat / 60) by decide, hrunning,
      by rw [hstep]; rfl⟩
  obtain ⟨-, fault, hfault, hstopped⟩ := hstops _ _ .refl hfails
  cases hfault
  obtain ⟨error, herror, hroot, hchain⟩ := hstopped.code
  refine ⟨error, herror, hroot, ?_⟩
  rw [hchain, hpc]
  decide +kernel

end Chip8.Play
