import Chip8.Proofs.Machine.Safety

/-!
# Steps that complete no instruction

A step either completes an instruction, or it halts the machine, or it is refused.

* `Machine.Refuses`: the opcodes that a machine refuses to run, and the fault that it then answers.
* `Machine.step_eq_error_iff`: a step fails exactly on these.
* `Machine.state_step_of_error`: a step that fails leaves the machine as it was, but for what its
  decoder has seen.
* `Machine.steps_of_hasHalted` and `Machine.step_of_halts`: a machine that has halted stays as it is,
  and one that halts changes its exit code.
-/

namespace Chip8

namespace Opcode

/-! ## Opcodes of the instructions that may be refused -/

theorem decode_eq_ret_iff {w : Opcode} : w.decode = .ok .ret ↔ w.toNat = 0x00EE := by
  constructor
  · intro h
    have hnibbles := nibbles_of_decode_eq h
    simp only [Instruction.nibbles, List.cons.injEq] at hnibbles
    omega
  · intro h
    refine decode_of_nibbles_eq ?_
    rw [h]
    rfl

/-- The instructions of the extended display and their opcodes. -/
theorem decode_eq_extended_iff {w : Opcode} {mnemonic : String} :
    (∃ i, w.decode = .ok i ∧ i.isExtended ∧ i.mnemonic = mnemonic) ↔
      (w.toNat / 16 = 0x00C ∧ mnemonic = "SCD") ∨ (w.toNat = 0x00FB ∧ mnemonic = "SCR") ∨
        (w.toNat = 0x00FC ∧ mnemonic = "SCL") ∨ (w.toNat = 0x00FE ∧ mnemonic = "LOW") ∨
          (w.toNat = 0x00FF ∧ mnemonic = "HIGH") := by
  constructor
  · rintro ⟨i, hdecode, hextended, rfl⟩
    have hnibbles := nibbles_of_decode_eq hdecode
    obtain ⟨lines, rfl⟩ | rfl | rfl | rfl | rfl := Instruction.isExtended_iff.mp hextended <;>
      simp [Instruction.nibbles, Instruction.mnemonic] at hnibbles ⊢ <;> omega
  · rintro (⟨hw, rfl⟩ | ⟨hw, rfl⟩ | ⟨hw, rfl⟩ | ⟨hw, rfl⟩ | ⟨hw, rfl⟩)
    · refine ⟨.scrollDown (w.toNat % 16).toUInt8, decode_of_nibbles_eq ?_, rfl, rfl⟩
      simp only [Instruction.nibbles, List.cons.injEq, UInt8.toNat_ofNat', and_true]
      omega
    · exact ⟨.scrollRight, decode_of_nibbles_eq (by rw [hw]; rfl), rfl, rfl⟩
    · exact ⟨.scrollLeft, decode_of_nibbles_eq (by rw [hw]; rfl), rfl, rfl⟩
    · exact ⟨.lowRes, decode_of_nibbles_eq (by rw [hw]; rfl), rfl, rfl⟩
    · exact ⟨.highRes, decode_of_nibbles_eq (by rw [hw]; rfl), rfl, rfl⟩

end Opcode

namespace Machine

/-! ## Refused opcodes -/

/-- The machine refuses to run the opcode `w` and answers with `failure`: the opcode is unknown, or
returns without a call, or belongs to the extended display. -/
def Refuses (m : Machine) (w : Opcode) (failure : Failure) : Prop :=
  ((¬ ∃ proto ∈ Instruction.all, w.fits proto.format = .ok true) ∧
    failure = .fault (.unknownOpcode w)) ∨
  (w.toNat = 0x00EE ∧ m.stack.frames = [] ∧ failure = .fault (.stackUnderflow "pop")) ∨
  ∃ mnemonic, failure = .fault (.notImplemented mnemonic) ∧
    ((w.toNat / 16 = 0x00C ∧ mnemonic = "SCD") ∨ (w.toNat = 0x00FB ∧ mnemonic = "SCR") ∨
      (w.toNat = 0x00FC ∧ mnemonic = "SCL") ∨ (w.toNat = 0x00FE ∧ mnemonic = "LOW") ∨
        (w.toNat = 0x00FF ∧ mnemonic = "HIGH"))

/-- A machine refuses the opcodes that it cannot decode and those whose instructions fail. -/
theorem refuses_iff {m : Machine} (hs : m.screen.WellFormed) {w : Opcode} {failure : Failure} :
    m.Refuses w failure ↔
      (w.decode = .error (.unknownOpcode w) ∧ failure = .fault (.unknownOpcode w)) ∨
        ∃ i, w.decode = .ok i ∧ (i.execute m).result = .error failure := by
  have hunknown : w.decode = .error (.unknownOpcode w) ↔
      ¬ ∃ proto ∈ Instruction.all, w.fits proto.format = .ok true := by
    rw [Opcode.decode_eq_error_iff]
    simp [Opcode.fits_format]
  simp only [Refuses, Instruction.execute_eq_error_iff hs, ← hunknown]
  refine or_congr_right ?_
  constructor
  · rintro (⟨hw, hframes, rfl⟩ | ⟨mnemonic, rfl, hw⟩)
    · exact ⟨.ret, Opcode.decode_eq_ret_iff.mpr hw, .inl ⟨rfl, hframes, rfl⟩⟩
    · obtain ⟨i, hdecode, hextended, rfl⟩ := Opcode.decode_eq_extended_iff.mpr hw
      exact ⟨i, hdecode, .inr ⟨hextended, rfl⟩⟩
  · rintro ⟨i, hdecode, ⟨rfl, hframes, rfl⟩ | ⟨hextended, rfl⟩⟩
    · exact .inl ⟨Opcode.decode_eq_ret_iff.mp hdecode, hframes, rfl⟩
    · exact .inr ⟨_, rfl, Opcode.decode_eq_extended_iff.mp ⟨i, hdecode, hextended, rfl⟩⟩

/-! ## Failing steps -/

/-- A step fails exactly on an opcode that the machine refuses. -/
theorem step_eq_error_iff {m : Machine} (h : m.Sound) {failure : Failure} :
    m.step.result = .error failure ↔
      m.hasHalted = false ∧ ∃ w, m.nextOpcode = some w ∧ m.Refuses w failure := by
  simp only [refuses_iff h.screen]
  cases h.stepped with
  | halted hhalted hstep => simp [hstep, hhalted, Outcome.done]
  | halts hrunning hopcode hstep => simp [hstep, hopcode, Outcome.done]
  | unknown w hrunning hopcode hdecode hstep =>
    simp [hstep, hrunning, hopcode, hdecode, Outcome.refuse, eq_comm]
  | refused w i fault hrunning hopcode hdecode hexecute hstep =>
    simp [hstep, hrunning, hopcode, hdecode, hexecute, Outcome.refuse]
  | performed w i m' hrunning hopcode hdecode hexecute hstep =>
    simp [hstep, hrunning, hopcode, hdecode, hexecute, Outcome.done]

/-- A step that fails leaves the machine as it was, but for what its decoder has seen. -/
theorem state_step_of_error {m : Machine} (h : m.Sound) {failure : Failure}
    (hresult : m.step.result = .error failure) :
    ∃ w, m.nextOpcode = some w ∧ m.step.state = m.seeing w := by
  cases h.stepped with
  | halted hhalted hstep => simp [hstep, Outcome.done] at hresult
  | halts hrunning hopcode hstep => simp [hstep, Outcome.done] at hresult
  | unknown w hrunning hopcode hdecode hstep => exact ⟨w, hopcode, by rw [hstep]; rfl⟩
  | refused w i fault hrunning hopcode hdecode hexecute hstep =>
    exact ⟨w, hopcode, by rw [hstep]; rfl⟩
  | performed w i m' hrunning hopcode hdecode hexecute hstep =>
    simp [hstep, Outcome.done] at hresult

/-! ## Machines that halt -/

theorem step_of_hasHalted {m : Machine} (h : m.hasHalted) : m.step = .done m () := by
  rw [step, if_pos h]

/-- A machine that has halted stays as it is, however many further steps are made. -/
theorem steps_of_hasHalted {m : Machine} (h : m.hasHalted) (n : Nat) : m.steps n = .done m () :=
  steps_of_step_eq (step_of_hasHalted h) n

theorem exitCode_moveOn (m : Machine) (i : Instruction) : (m.moveOn i).exitCode = m.exitCode := by
  rw [moveOn_eq]

theorem run_step_of_hasHalted {m : Machine} (h : m.hasHalted) (n : Nat) :
    Operation.run (List.replicate n .step) m = m :=
  run_step_of_step_eq (step_of_hasHalted h) n

/-- A machine that halts in a step changes its exit code and nothing else. -/
theorem step_of_halts {m : Machine} (h : m.Sound) (hrunning : m.exitCode = none)
    (hhalts : m.step.state.exitCode ≠ none) : m.step = .done { m with exitCode := some 0 } () := by
  cases h.stepped with
  | halted hhalted hstep => simp [hasHalted, hrunning] at hhalted
  | halts _ _ hstep => exact hstep
  | unknown w _ _ _ hstep =>
    rw [hstep] at hhalts
    exact absurd hrunning hhalts
  | refused w i fault _ _ _ _ hstep =>
    rw [hstep] at hhalts
    exact absurd hrunning hhalts
  | performed w i m' _ _ _ hexecute hstep =>
    have hexit : (i.execute m).state.exitCode = m.exitCode := i.exitCode_execute m
    rw [hexecute] at hexit
    rw [hstep] at hhalts
    exact absurd ((exitCode_moveOn m' i).trans (hexit.trans hrunning)) hhalts

/-- A step leaves the exit code as it is or sets it to zero. -/
theorem exitCode_step {m : Machine} (h : m.Sound) :
    m.step.state.exitCode = m.exitCode ∨ m.step.state.exitCode = some 0 := by
  cases hexit : m.exitCode with
  | some code =>
    left
    rw [step_of_hasHalted (hasHalted_iff.mpr (by simp [hexit]))]
    exact hexit
  | none =>
    by_cases hhalts : m.step.state.exitCode = none
    · exact .inl hhalts
    · rw [step_of_halts h hexit hhalts]
      exact .inr rfl

/-! ## Steps that complete no instruction -/

/-- A step of a reachable machine that completes no instruction leaves the machine as it was.  A step
that fails may add to what the decoder has seen, a machine that has halted does not change at all,
and one that halts changes its exit code.  The steps that fail are those on an opcode that the
machine refuses, and drawing and setting a timer never fail. -/
theorem incomplete_step_keeps_machine {m : Machine} (h : m.Reachable) :
    (∀ failure, m.step.result = .error failure →
      m.step.state.withDecoder m.decoder = m ∧
      ∀ (w : Opcode) (i : Instruction), m.decoder.lookup? w = some i →
        m.step.state.decoder.lookup? w = some i) ∧
    (m.exitCode ≠ none → ∀ n, m.steps n = .done m () ∧
      Operation.run (List.replicate n .step) m = m) ∧
    (m.exitCode = none → m.step.state.exitCode ≠ none →
      m.step = .done { m with exitCode := some 0 } ()) ∧
    (∀ failure, m.step.result = .error failure ↔
      m.exitCode = none ∧ ∃ high low, m.memory[m.pc.toNat]? = some high ∧
        m.memory[m.pc.toNat + 1]? = some low ∧ ¬ (high = 0 ∧ low = 0) ∧
          m.Refuses (.ofBytes high low) failure) ∧
    Checked.step? m = some m.step ∧
    ∀ i : Instruction, Checked.execute? i m = some (i.execute m) ∧
      (∀ value, (i.execute m).result ≠ .error (.fault (.invalidPixel value))) ∧
      ∀ value, (i.execute m).result ≠ .error (.fault (.timerOutOfRange value)) := by
  have hsound := h.sound
  have hnone : m.hasHalted = false ↔ m.exitCode = none := by simp [hasHalted]
  refine ⟨?_, ?_, step_of_halts hsound, ?_, Checked.step?_eq hsound, fun i => ⟨?_, ?_, ?_⟩⟩
  · intro failure hresult
    obtain ⟨w, -, hstate⟩ := state_step_of_error hsound hresult
    rw [hstate]
    exact ⟨rfl, fun w' i hfound => Decoder.lookup?_decode_of_eq_some w hfound⟩
  · intro hhalted n
    have hsome : m.hasHalted := by simpa [hasHalted, Option.isSome_iff_ne_none] using hhalted
    exact ⟨steps_of_hasHalted hsome n, run_step_of_hasHalted hsome n⟩
  · intro failure
    rw [step_eq_error_iff hsound, hnone]
    simp only [nextOpcode_eq_some_iff]
    refine and_congr_right fun _ => ⟨?_, ?_⟩
    · rintro ⟨_, ⟨high, low, hhigh, hlow, rfl, hnonzero⟩, hrefuses⟩
      exact ⟨high, low, hhigh, hlow, hnonzero, hrefuses⟩
    · rintro ⟨high, low, hhigh, hlow, hnonzero, hrefuses⟩
      exact ⟨_, ⟨high, low, hhigh, hlow, rfl, hnonzero⟩, hrefuses⟩
  · exact Checked.execute?_eq hsound.memory_pos hsound.screen hsound.pixels_lt i
  · intro value hresult
    rcases (Instruction.execute_eq_error_iff hsound.screen).mp hresult with ⟨-, -, h⟩ | ⟨-, h⟩ <;>
      cases h
  · intro value hresult
    rcases (Instruction.execute_eq_error_iff hsound.screen).mp hresult with ⟨-, -, h⟩ | ⟨-, h⟩ <;>
      cases h

/-- A return without a call, of which the machine makes nothing. -/
theorem incomplete_step_keeps_machine_ret :
    ∃ m : Machine, m.Reachable ∧ m.step.result = .error (.fault (.stackUnderflow "pop")) ∧
      m.step.state.withDecoder m.decoder = m := by
  have hnew := @Reachable.new { memorySize := 96, loadAddress := 80 } (.replicate 8 0) _ rfl
  have hload := Reachable.apply (.load #[0x00, 0xEE]) hnew (show 2 < arrayLimit by decide)
  have hstep := incomplete_step_keeps_machine hload
  have hfails := (hstep.2.2.2.1 (.fault (.stackUnderflow "pop"))).mpr
    ⟨rfl, 0x00, 0xEE, by decide +kernel, by decide +kernel, by decide, .inr (.inl ⟨rfl, rfl, rfl⟩)⟩
  exact ⟨_, hload, hfails, (hstep.1 _ hfails).1⟩

end Machine

end Chip8
