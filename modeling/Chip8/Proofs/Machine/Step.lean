import Chip8.Machine.Step
import Chip8.Proofs.Decoder.History
import Chip8.Proofs.Machine.Frame
import Chip8.Proofs.Operation.Answers

/-!
# Steps of a machine with a coherent decoder

`Machine.step` sets and clears the note that an instruction is being executed and asks the decoder on
the way.  Neither matters for what the step does:

* `nextOpcode_eq_some_iff`: where the opcode of a step comes from.
* `execute_withDecoder` and `perform_withDecoder`: an instruction does not involve the decoder.
* `perform_eq`: between operations, where no instruction is being executed, performing an instruction
  is executing it on the machine as it is and moving on behind it.
* `step_eq` and `peek_eq`: what a step and a look ahead do by the meaning of the opcode, without the
  decoder's memory.
* `steps_of_step_eq` and `run_step_of_step_eq`: a machine that a step leaves as it is stays as it is.
-/

namespace Chip8

namespace Machine

/-- The machine with another decoder. -/
def withDecoder (m : Machine) (d : Decoder) : Machine := { m with decoder := d }

/-- The machine after its decoder has been asked for an opcode. -/
def seeing (m : Machine) (w : Opcode) : Machine := m.withDecoder (m.decoder.decode w).1

theorem hasHalted_iff {m : Machine} : m.hasHalted = true ↔ m.exitCode ≠ none := by
  rw [hasHalted, Option.isSome_iff_ne_none]

theorem hasHalted_eq_false_iff {m : Machine} : m.hasHalted = false ↔ m.exitCode = none := by
  rw [hasHalted, Option.isSome_eq_false_iff, Option.isNone_iff_eq_none]

/-- The opcode at the program counter is made of the two bytes there, unless both are zero. -/
theorem nextOpcode_eq_some_iff {m : Machine} {w : Opcode} :
    m.nextOpcode = some w ↔
      ∃ high low, m.memory[m.pc.toNat]? = some high ∧ m.memory[m.pc.toNat + 1]? = some low ∧
        w = .ofBytes high low ∧ ¬ (high = 0 ∧ low = 0) := by
  have hzero (high low : UInt8) : Opcode.ofBytes high low = 0 ↔ high = 0 ∧ low = 0 := by
    rw [← UInt16.toNat_inj, Opcode.toNat_ofBytes, ← UInt8.toNat_inj, ← UInt8.toNat_inj]
    simp only [UInt8.toNat_zero, UInt16.toNat_zero]
    omega
  simp only [nextOpcode, fetch, Option.filter_eq_some_iff]
  cases m.memory[m.pc.toNat]? with
  | none => simp
  | some high =>
    cases m.memory[m.pc.toNat + 1]? with
    | none => simp
    | some low =>
      constructor
      · rintro ⟨hw, hnonzero⟩
        cases hw
        rw [decide_eq_true_eq, ne_eq, hzero] at hnonzero
        exact ⟨high, low, rfl, rfl, rfl, hnonzero⟩
      · rintro ⟨_, _, hhigh, hlow, rfl, hnonzero⟩
        cases hhigh
        cases hlow
        exact ⟨rfl, by rwa [decide_eq_true_eq, ne_eq, hzero]⟩

theorem decode_eq {m : Machine} (h : m.decoder.Coherent) (w : Opcode) :
    m.decode w = ⟨m.seeing w, w.decode.mapError .fault⟩ := by
  rw [← Decoder.decode_of_coherent h w]
  rfl

/-- Executing an instruction does not involve the decoder. -/
theorem execute_withDecoder (m : Machine) (d : Decoder) (i : Instruction) :
    i.execute (m.withDecoder d) = (i.execute m).within (·.withDecoder d) := by
  have hhost := i.execute_hostedBy m (m.withDecoder d)
  have hself := i.state_execute_eq m
  rw [show m.hostedBy (m.withDecoder d) = m.withDecoder d from rfl] at hhost
  rw [hhost]
  generalize i.execute m = outcome at hself ⊢
  obtain ⟨m', result⟩ := outcome
  have hdecoder : m'.hostedBy (m.withDecoder d) = m'.withDecoder d := by
    rw [show m' = m'.hostedBy m from hself]
    rfl
  simp only [Outcome.within, hdecoder]

/-- Between operations the note that an instruction is being executed plays no part. -/
theorem perform_eq {m : Machine} (h : m.executing = false) (i : Instruction) :
    m.perform i =
      match i.execute m with
      | ⟨m', .ok ()⟩ => .done (m'.moveOn i) ()
      | ⟨m', .error (.fault fault)⟩ => .refuse m' fault
      | ⟨m', .error .outOfBounds⟩ => .fail { m' with executing := true } .outOfBounds := by
  have hhost : i.execute { m with executing := true } =
      (i.execute m).within (·.hostedBy { m with executing := true }) :=
    i.execute_hostedBy m { m with executing := true }
  have hself := i.state_execute_eq m
  rw [perform, hhost]
  generalize i.execute m = outcome at hself ⊢
  obtain ⟨m', result⟩ := outcome
  -- The fields of the host are those of `m`, and `m` has the note cleared.
  have hcleared : { m'.hostedBy { m with executing := true } with executing := false } = m' := by
    rw [show m' = m'.hostedBy m from hself]
    simp [hostedBy, h]
  have hmarked : m'.hostedBy { m with executing := true } = { m' with executing := true } := by
    rw [show m' = m'.hostedBy m from hself]
    simp [hostedBy]
  obtain (fault | _) | _ := result
  · simp only [Outcome.within, hcleared]
  · simp only [Outcome.within, hmarked]
  · simp only [Outcome.within, hcleared]

/-- Moving on behind an instruction changes nothing but the program counter. -/
theorem moveOn_eq (m : Machine) (i : Instruction) :
    m.moveOn i = { m with pc := if i.isJump || m.blocked then m.pc else m.pc + 2 } := by
  unfold moveOn
  split <;> rfl

theorem moveOn_withDecoder (m : Machine) (d : Decoder) (i : Instruction) :
    (m.withDecoder d).moveOn i = (m.moveOn i).withDecoder d := by
  rw [moveOn_eq, moveOn_eq]
  rfl

/-- Performing an instruction does not involve the decoder. -/
theorem perform_withDecoder (m : Machine) (d : Decoder) (i : Instruction) :
    (m.withDecoder d).perform i = (m.perform i).within (·.withDecoder d) := by
  have hexecute : i.execute { m.withDecoder d with executing := true } =
      (i.execute { m with executing := true }).within (·.withDecoder d) :=
    execute_withDecoder { m with executing := true } d i
  rw [perform, perform, hexecute]
  obtain ⟨m', result⟩ := i.execute { m with executing := true }
  simp only [Outcome.within]
  obtain (fault | _) | _ := result
  · rfl
  · rfl
  · exact congrArg (Outcome.done · ()) (moveOn_withDecoder { m' with executing := false } d i)

/-- A step by the meaning of the opcode at the program counter. -/
theorem step_eq {m : Machine} (h : m.decoder.Coherent) :
    m.step =
      if m.hasHalted then .done m ()
      else if m.executing then .refuse m .reentrant
      else
        match m.nextOpcode with
        | none => .done { m with exitCode := some 0 } ()
        | some w =>
          match w.decode with
          | .error fault => .refuse (m.seeing w) fault
          | .ok i => (m.seeing w).perform i := by
  unfold step
  split
  · rfl
  split
  · rfl
  cases m.nextOpcode with
  | none => rfl
  | some w =>
    simp only [decode_eq h]
    cases w.decode <;> rfl

theorem peek_eq {m : Machine} (h : m.decoder.Coherent) :
    m.peek =
      match m.nextOpcode with
      | none => .done m none
      | some w => ⟨m.seeing w, (w.decode.mapError .fault).map some⟩ := by
  unfold peek
  cases m.nextOpcode with
  | none => rfl
  | some w =>
    simp only [decode_eq h]
    cases w.decode <;> rfl

/-! ## Machines that stay as they are -/

theorem steps_of_step_eq {m : Machine} (h : m.step = .done m ()) (n : Nat) :
    m.steps n = .done m () := by
  induction n with
  | zero => rfl
  | succ n ih =>
    rw [steps, Outcome.repeatTimes, Outcome.repeatUntil, if_neg (by simp), h]
    exact ih

theorem run_step_of_step_eq {m : Machine} (h : m.step = .done m ()) (n : Nat) :
    Operation.run (List.replicate n .step) m = m := by
  have happly : (Operation.step.apply m).state = m := by
    simp only [Operation.apply, h]
    rfl
  induction n with
  | zero => rfl
  | succ n ih => rw [List.replicate_succ, Operation.run_cons, happly, ih]

end Machine

end Chip8
