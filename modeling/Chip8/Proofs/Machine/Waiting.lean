import Chip8.Proofs.Keypad
import Chip8.Proofs.Machine.Effects
import Chip8.Proofs.Machine.Loading

/-!
# Waiting for a key

The note that a machine waits for a key is kept apart from the program counter and the memory, and it
is looked at after every instruction.  It means that the machine stands at an instruction that waits
for a key and has come there by a step.

* `Machine.WaitsAt`: the machine stands at such an instruction and its decoder knows it.
* `Machine.WaitsAt.step`: what a step does there.
* `Machine.Settled`: a machine that waits stands at such an instruction.  Steps keep this
  (`Settled.step`), and so does everything that a host does to run programs (`Operation.settled_run`).
-/

namespace Chip8

namespace Machine

/-! ## Standing at an instruction that waits -/

/-- The machine runs, and the opcode `w` at its program counter waits for a key for register `x`.
Its decoder has seen the opcode before. -/
structure WaitsAt (m : Machine) (w : Opcode) (x : UInt8) : Prop where
  running : m.exitCode = none
  opcode : m.nextOpcode = some w
  decode : w.decode = .ok (.waitKey x)
  known : m.decoder.lookup? w = some (.waitKey x)

/-- A decoder that knows an opcode stays as it is when it is asked for it. -/
theorem seeing_of_known {m : Machine} {w : Opcode} {i : Instruction}
    (h : m.decoder.lookup? w = some i) : m.seeing w = m := by
  rw [seeing, Decoder.decode, h]
  rfl

namespace WaitsAt

variable {m : Machine} {w : Opcode} {x : UInt8}

/-- A step performs the instruction that waits. -/
theorem step_eq_perform (h : m.WaitsAt w x) (hm : m.Sound) : m.step = m.perform (.waitKey x) := by
  simp only [hm.step_of_running h.running, h.opcode, h.decode, seeing_of_known h.known]

theorem step (h : m.WaitsAt w x) (hm : m.Sound) :
    m.step = .done ((m.awaitKey x).moveOn (.waitKey x)) () := by
  rw [h.step_eq_perform hm, perform_eq hm.executing]
  rfl

/-- Without a key that is down nothing happens. -/
theorem step_of_up (h : m.WaitsAt w x) (hm : m.Sound) (hblocked : m.blocked = true)
    (hup : ∀ key, m.keypad.isPressed key = false) : m.step = .done m () := by
  have hfirst : m.keypad.firstPressed? = none := Keypad.firstPressed?_eq_none_iff.mpr hup
  have hawait : m.awaitKey x = m := by
    simp only [awaitKey, hfirst]
    rw [← hblocked]
  rw [h.step hm, hawait, moveOn, if_pos (by simp [hblocked])]

/-- The lowest key that is down goes into the register, and the wait is over. -/
theorem step_of_down (h : m.WaitsAt w x) (hm : m.Sound) {key : UInt8}
    (hfirst : m.keypad.firstPressed? = some key) :
    m.step = .done { m.setReg x key with blocked := false, pc := m.pc + 2 } () := by
  have hawait : m.awaitKey x = { m.setReg x key with blocked := false } := by
    simp only [awaitKey, hfirst]
  rw [h.step hm, hawait, moveOn, if_neg (by simp [Instruction.isJump])]
  rfl

theorem seeing (h : m.WaitsAt w x) (w' : Opcode) : (m.seeing w').WaitsAt w x :=
  { h with known := Decoder.lookup?_decode_of_eq_some w' h.known }

end WaitsAt

/-! ## The meaning of the note -/

/-- If the machine waits for a key then it stands at an instruction that does. -/
def Settled (m : Machine) : Prop := m.blocked = true → ∃ w x, m.WaitsAt w x

namespace Settled

variable {m : Machine}

theorem of_not_blocked (h : m.blocked = false) : m.Settled := by
  intro hblocked
  rw [h] at hblocked
  cases hblocked

theorem seeing (h : m.Settled) (w : Opcode) : (m.seeing w).Settled := by
  intro hblocked
  obtain ⟨w', x, hwaits⟩ := h hblocked
  exact ⟨w', x, hwaits.seeing w⟩

/-- An instruction that is performed either waits where it stands or leaves no wait behind. -/
theorem performed (h : m.Settled) (hm : m.Sound) {w : Opcode} {i : Instruction} {m' : Machine}
    (hrunning : m.hasHalted = false) (hopcode : m.nextOpcode = some w)
    (hdecode : w.decode = .ok i) (hexecute : i.execute m = .done m' ()) :
    ((m'.moveOn i).withDecoder (m.decoder.decode w).1).Settled := by
  have hmoved : ((m'.moveOn i).withDecoder (m.decoder.decode w).1).blocked = m'.blocked := by
    unfold moveOn
    split <;> rfl
  by_cases hi : ∃ x, i = .waitKey x
  · obtain ⟨x, rfl⟩ := hi
    cases hfirst : m.keypad.firstPressed? with
    | some key =>
      obtain rfl : { m.setReg x key with blocked := false } = m' := by
        simpa [Instruction.execute, awaitKey, hfirst, Outcome.done] using hexecute
      exact of_not_blocked hmoved
    | none =>
      obtain rfl : { m with blocked := true } = m' := by
        simpa [Instruction.execute, awaitKey, hfirst, Outcome.done] using hexecute
      intro _
      have hexit := hasHalted_eq_false_iff.mp hrunning
      rw [moveOn, if_pos (by simp)]
      refine ⟨w, x, hexit, hopcode, hdecode, ?_⟩
      have hknown := Decoder.lookup?_decode hm.decoder w w
      rw [if_pos rfl, hdecode] at hknown
      exact hknown
  · have hother : ∀ x, i ≠ .waitKey x := fun x hx => hi ⟨x, hx⟩
    have hkept : (i.execute m).state.blocked = m.blocked := Instruction.blocked_execute hother m
    rw [hexecute] at hkept
    -- A machine that waited would have performed the instruction that waits.
    refine of_not_blocked ?_
    rw [hmoved, ← Bool.not_eq_true]
    intro hblocked
    obtain ⟨w', x, hwaits⟩ := h (hkept.symm.trans hblocked)
    rw [hwaits.opcode] at hopcode
    cases hopcode
    rw [hwaits.decode] at hdecode
    cases hdecode
    exact hi ⟨x, rfl⟩

theorem step (h : m.Settled) (hm : m.Sound) : m.step.state.Settled := by
  cases hm.stepped with
  | halted hhalted hstep => exact hstep ▸ h
  | halts hrunning hopcode hstep =>
    rw [hstep]
    refine of_not_blocked (m := { m with exitCode := some 0 }) ?_
    rw [← Bool.not_eq_true]
    intro hblocked
    obtain ⟨w, x, hwaits⟩ := h hblocked
    rw [hwaits.opcode] at hopcode
    cases hopcode
  | unknown w hrunning hopcode hdecode hstep => exact hstep ▸ h.seeing w
  | refused w i fault hrunning hopcode hdecode hexecute hstep => exact hstep ▸ h.seeing w
  | performed w i m' hrunning hopcode hdecode hexecute hstep =>
    rw [hstep]
    exact h.performed hm hrunning hopcode hdecode hexecute

theorem loadAt (h : m.Settled) (program : Array UInt8) (origin : UInt16) :
    (m.loadAt program origin).state.Settled := by
  unfold Machine.loadAt
  split
  · exact of_not_blocked rfl
  · exact h

theorem setKey (h : m.Settled) (key : UInt8) (down : Bool) :
    (m.setKey key down).state.Settled := by
  unfold Machine.setKey
  split
  · intro hblocked
    obtain ⟨w, x, hwaits⟩ := h hblocked
    exact ⟨w, x, { hwaits with }⟩
  · exact h

end Settled

end Machine

namespace Operation

/-! ## Runs -/

/-- What a host does to run programs: it loads and resets, steps, looks ahead, ticks the timers and
moves keys. -/
def Runs : Operation → Prop
  | load _ | loadAt .. | reset | step | peek | tick | keyDown _ | keyUp _ => True
  | _ => False

theorem ne_replaceScreen_of_runs {operation : Operation} (h : operation.Runs)
    (height width : Nat) : operation ≠ .replaceScreen height width := by
  rintro rfl
  exact h

theorem settled_apply {operation : Operation} (hruns : operation.Runs) {m : Machine}
    (hm : m.Sound) (h : m.Settled) : (operation.apply m).state.Settled := by
  cases operation with
  | load program => exact h.loadAt program m.config.loadAddress
  | loadAt program origin => exact h.loadAt program origin
  | reset => exact .of_not_blocked rfl
  | step => exact h.step hm
  | peek =>
    simp only [apply]
    rw [Machine.peek_eq hm.decoder]
    cases m.nextOpcode with
    | none => exact h
    | some w => exact h.seeing w
  | tick =>
    intro hblocked
    obtain ⟨w, x, hwaits⟩ := h hblocked
    exact ⟨w, x, { hwaits with }⟩
  | keyDown key => exact h.setKey key true
  | keyUp key => exact h.setKey key false
  | _ => exact hruns.elim

theorem settled_run {operations : List Operation} (hruns : ∀ operation ∈ operations, operation.Runs)
    {m : Machine} (hm : m.Sound) (h : m.Settled) :
    (run operations m).Sound ∧ (run operations m).Settled := by
  induction operations generalizing m with
  | nil => exact ⟨hm, h⟩
  | cons operation operations ih =>
    obtain ⟨hfirst, hrest⟩ := List.forall_mem_cons.mp hruns
    exact ih hrest (sound_apply_of_ne_replaceScreen hm (ne_replaceScreen_of_runs hfirst))
      (settled_apply hfirst hm h)

end Operation

namespace Machine

/-- However a host runs programs on a new machine, a machine that waits for a key has not halted and
stands at an instruction that waits for one.  A step performs this instruction and no other.  As long
as no key is down steps change nothing, and when keys are down a step puts the lowest of them into
the register of the instruction, moves on behind it, and changes nothing else. -/
theorem waits_where_it_stands {config : Config} {entropy : Random.Key} {m₀ : Machine}
    (hnew : Machine.new config entropy = .ok m₀)
    {operations : List Operation} (hruns : ∀ operation ∈ operations, operation.Runs) :
    let m := Operation.run operations m₀
    m.blocked = true →
      m.exitCode = none ∧
      ∃ high low x, m.memory[m.pc.toNat]? = some high ∧ m.memory[m.pc.toNat + 1]? = some low ∧
        (Opcode.ofBytes high low).decode = .ok (.waitKey x) ∧
        m.step = m.perform (.waitKey x) ∧ m.step.state.exitCode = none ∧
        ((∀ key, m.keypad.isPressed key = false) → ∀ n,
          m.steps n = .done m () ∧ Operation.run (List.replicate n .step) m = m) ∧
        ∀ down, m.keypad.isPressed down = true →
          ∃ key, m.keypad.isPressed key = true ∧
            (∀ other, other < key → m.keypad.isPressed other = false) ∧
            m.step = .done { m.setReg x key with blocked := false, pc := m.pc + 2 } () := by
  intro m hblocked
  obtain ⟨-, hreset, -, hsound⟩ := fresh_of_new hnew
  have hstart : m₀.Settled := .of_not_blocked (congrArg Machine.blocked hreset).symm
  obtain ⟨hm, hsettled⟩ := Operation.settled_run hruns hsound hstart
  obtain ⟨w, x, hwaits⟩ := hsettled hblocked
  obtain ⟨high, low, hhigh, hlow, rfl, -⟩ := nextOpcode_eq_some_iff.mp hwaits.opcode
  refine ⟨hwaits.running, high, low, x, hhigh, hlow, hwaits.decode, hwaits.step_eq_perform hm,
    ?_, fun hup n => ?_, fun down hdown => ?_⟩
  · cases hfirst : m.keypad.firstPressed? with
    | none =>
      rw [hwaits.step_of_up hm hblocked (Keypad.firstPressed?_eq_none_iff.mp hfirst)]
      exact hwaits.running
    | some key =>
      rw [hwaits.step_of_down hm hfirst]
      exact hwaits.running
  · have hstep := hwaits.step_of_up hm hblocked hup
    exact ⟨steps_of_step_eq hstep n, run_step_of_step_eq hstep n⟩
  · cases hfirst : m.keypad.firstPressed? with
    | none =>
      rw [Keypad.firstPressed?_eq_none_iff.mp hfirst down] at hdown
      cases hdown
    | some key =>
      obtain ⟨hkey, hlower⟩ := Keypad.firstPressed?_eq_some_iff.mp hfirst
      exact ⟨key, hkey, hlower, hwaits.step_of_down hm hfirst⟩

/-- A program that waits for a key.  Nothing happens as long as no key is down, and when keys 9 and 5
are down the lower one is read. -/
theorem waits_where_it_stands_for_five :
    ∃ m, Machine.new { memorySize := 96, loadAddress := 80 } (.replicate 8 0) = .ok m ∧
      let waiting := Operation.run [.load #[0xF3, 0x0A], .step] m
      let called := Operation.run [.load #[0xF3, 0x0A], .step, .keyDown 9, .keyDown 5] m
      waiting.blocked = true ∧ (∀ n, waiting.steps n = .done waiting ()) ∧
        called.blocked = true ∧
        ∃ x, called.step =
          .done { called.setReg x 5 with blocked := false, pc := called.pc + 2 } () := by
  obtain ⟨m, hnew⟩ :
      ∃ m, Machine.new { memorySize := 96, loadAddress := 80 } (.replicate 8 0) = .ok m := ⟨_, rfl⟩
  have hfresh := fresh_of_new hnew
  have hload : m.load #[0xF3, 0x0A] = _ := hfresh.load (by decide)
  have hkeypad : (m.load #[0xF3, 0x0A]).state.keypad = {} := by
    rw [hload]
    exact hfresh.keypad_eq
  have hexecute : (Instruction.waitKey 3).execute (m.load #[0xF3, 0x0A]).state =
      .done { (m.load #[0xF3, 0x0A]).state with blocked := true } () := by
    have hfirst : ({} : Keypad).firstPressed? = none := by decide
    simp only [Instruction.execute, awaitKey, hkeypad, hfirst]
  have hstep := hfresh.step_load (by decide) rfl rfl (by decide)
    (Opcode.decode_of_nibbles_eq rfl) hexecute
  refine ⟨m, hnew, ?_⟩
  intro waiting called
  generalize hloaded : (m.load #[0xF3, 0x0A]).state = loaded at *
  have hwaiting : waiting = loaded.step.state := by rw [← hloaded]; rfl
  have hblocked : waiting.blocked = true := by
    rw [hwaiting, hstep]
    rfl
  have hup : waiting.keypad = {} := by
    rw [hwaiting, hstep]
    exact hkeypad
  obtain ⟨keypad, hset, hfive⟩ : ∃ keypad,
      called = { waiting with keypad } ∧ keypad.firstPressed? = some 5 := by
    refine ⟨{ keys := ((Vector.replicate 16 false).set 9 true).set 5 true }, ?_, by decide⟩
    rw [show called = Operation.run [.keyDown 9, .keyDown 5] waiting from
      Operation.run_append [.load #[0xF3, 0x0A], .step] _ m]
    simp [Operation.run, Operation.apply, Outcome.toAnswer, setKey, hup, Keypad.set, Outcome.done]
  have hkeypad' : called.keypad = keypad := congrArg Machine.keypad hset
  have hcalled : called.blocked = true := (congrArg Machine.blocked hset).trans hblocked
  obtain ⟨-, _, _, _, -, -, -, -, -, hidle, -⟩ :=
    waits_where_it_stands hnew (by simp [Operation.Runs]) hblocked
  obtain ⟨-, _, _, x, -, -, -, -, -, -, hread⟩ :=
    waits_where_it_stands hnew (by simp [Operation.Runs]) hcalled
  have hfive' : called.keypad.firstPressed? = some 5 := hkeypad' ▸ hfive
  obtain ⟨key, hkey, hlower, hreads⟩ := hread 5 (Keypad.firstPressed?_eq_some_iff.mp hfive').1
  obtain rfl : key = 5 := Option.some.inj
    ((Keypad.firstPressed?_eq_some_iff.mpr ⟨hkey, hlower⟩).symm.trans hfive')
  have hnone : ∀ k, waiting.keypad.isPressed k = false := by
    rw [hup]
    exact Keypad.isPressed_new
  exact ⟨hblocked, fun n => (hidle hnone n).1, hcalled, x, hreads⟩

end Machine

end Chip8
