import Chip8.Proofs.Machine.Step
import Chip8.Proofs.Operation.Answers

/-!
# The memory of a decoder does not show

Machines that differ only in what their decoders have seen answer every operation alike and stay
alike in everything but their decoders.

* `Machine.step_withDecoder` and `Machine.peek_withDecoder`: the two operations that decode.
* `Operation.apply_withDecoder`: every operation.
* `Operation.coherent_apply`: no operation makes a decoder remember what is not so.
* `Operation.run_withDecoder`: every list of operations.

`Decoder.past_does_not_show` puts this together with what a decoder with a past answers.
-/

namespace Chip8

namespace Machine

/-! ## The operations that decode -/

/-- Steps of machines that differ only in what their decoders have seen. -/
theorem step_withDecoder {m : Machine} {d : Decoder} (hm : m.decoder.Coherent) (hd : d.Coherent) :
    ∃ d' : Decoder, d'.Coherent ∧ (m.withDecoder d).step = m.step.within (·.withDecoder d') := by
  have hhalted : (m.withDecoder d).hasHalted = m.hasHalted := rfl
  have hexecuting : (m.withDecoder d).executing = m.executing := rfl
  have hopcode : (m.withDecoder d).nextOpcode = m.nextOpcode := rfl
  rw [step_eq hm, step_eq (m := m.withDecoder d) hd, hhalted, hexecuting, hopcode]
  split
  · exact ⟨d, hd, rfl⟩
  split
  · exact ⟨d, hd, rfl⟩
  cases m.nextOpcode with
  | none => exact ⟨d, hd, rfl⟩
  | some w =>
    refine ⟨(d.decode w).1, hd.decode w, ?_⟩
    have hseeing : (m.withDecoder d).seeing w = (m.seeing w).withDecoder (d.decode w).1 := rfl
    simp only [hseeing]
    cases w.decode with
    | error fault => rfl
    | ok i => exact perform_withDecoder (m.seeing w) (d.decode w).1 i

theorem peek_withDecoder {m : Machine} {d : Decoder} (hm : m.decoder.Coherent) (hd : d.Coherent) :
    ∃ d' : Decoder, d'.Coherent ∧ (m.withDecoder d).peek = m.peek.within (·.withDecoder d') := by
  have hopcode : (m.withDecoder d).nextOpcode = m.nextOpcode := rfl
  rw [peek_eq hm, peek_eq (m := m.withDecoder d) hd, hopcode]
  cases m.nextOpcode with
  | none => exact ⟨d, hd, rfl⟩
  | some w => exact ⟨(d.decode w).1, hd.decode w, rfl⟩

theorem poke_withDecoder (m : Machine) (d : Decoder) (address : Nat) (bytes : Array UInt8) :
    (m.withDecoder d).poke address bytes = (m.poke address bytes).within (·.withDecoder d) := by
  have hsize : (m.withDecoder d).memory.size = m.memory.size := rfl
  unfold poke
  rw [hsize, writeBytes_eq, writeBytes_eq]
  split <;> rfl

theorem loadAt_withDecoder (m : Machine) (d : Decoder) (program : Array UInt8) (origin : UInt16) :
    (m.withDecoder d).loadAt program origin =
      (m.loadAt program origin).within (·.withDecoder d) := by
  have hroom : (m.withDecoder d).hasRoomFor program.size origin =
      m.hasRoomFor program.size origin := rfl
  unfold loadAt
  rw [hroom]
  split <;> rfl

theorem setKey_withDecoder (m : Machine) (d : Decoder) (key : UInt8) (down : Bool) :
    (m.withDecoder d).setKey key down = (m.setKey key down).within (·.withDecoder d) := by
  have hkeypad : (m.withDecoder d).keypad = m.keypad := rfl
  unfold setKey
  rw [hkeypad]
  cases m.keypad.set key down <;> rfl

end Machine

namespace Operation

open Machine

/-- An operation on machines that differ only in what their decoders have seen. -/
theorem apply_withDecoder (operation : Operation) {m : Machine} {d : Decoder}
    (hm : m.decoder.Coherent) (hd : d.Coherent) :
    ∃ d' : Decoder, d'.Coherent ∧
      operation.apply (m.withDecoder d) = (operation.apply m).within (·.withDecoder d') := by
  cases operation with
  | step =>
    obtain ⟨d', hd', hstep⟩ := step_withDecoder hm hd
    exact ⟨d', hd', congrArg Outcome.toAnswer hstep⟩
  | peek =>
    obtain ⟨d', hd', hpeek⟩ := peek_withDecoder hm hd
    refine ⟨d', hd', ?_⟩
    simp only [apply, hpeek]
    rfl
  | load program =>
    exact ⟨d, hd, congrArg Outcome.toAnswer (m.loadAt_withDecoder d program m.config.loadAddress)⟩
  | loadAt program origin =>
    exact ⟨d, hd, congrArg Outcome.toAnswer (m.loadAt_withDecoder d program origin)⟩
  | execute i => exact ⟨d, hd, congrArg Outcome.toAnswer (m.execute_withDecoder d i)⟩
  | setDelay value =>
    refine ⟨d, hd, ?_⟩
    simp only [apply, setTimer]
    cases Timer.set? value <;> rfl
  | setSound value =>
    refine ⟨d, hd, ?_⟩
    simp only [apply, setTimer]
    cases Timer.set? value <;> rfl
  | poke address bytes =>
    exact ⟨d, hd, congrArg Outcome.toAnswer (m.poke_withDecoder d address bytes)⟩
  | keyDown key => exact ⟨d, hd, congrArg Outcome.toAnswer (m.setKey_withDecoder d key true)⟩
  | keyUp key => exact ⟨d, hd, congrArg Outcome.toAnswer (m.setKey_withDecoder d key false)⟩
  | pop =>
    refine ⟨d, hd, ?_⟩
    have hstack : (m.withDecoder d).stack = m.stack := rfl
    simp only [apply, hstack]
    cases m.stack.pop <;> rfl
  | top =>
    refine ⟨d, hd, ?_⟩
    have hstack : (m.withDecoder d).stack = m.stack := rfl
    simp only [apply, hstack]
    cases m.stack.top <;> rfl
  | _ => exact ⟨d, hd, rfl⟩

/-- No operation makes a decoder remember what is not so. -/
theorem coherent_apply (operation : Operation) {m : Machine} (hm : m.decoder.Coherent) :
    (operation.apply m).state.decoder.Coherent := by
  -- A machine is itself with its own decoder, so the decoder afterwards is the coherent one given.
  obtain ⟨d', hd', happly⟩ := operation.apply_withDecoder hm hm
  have hstate : (operation.apply m).state = (operation.apply m).state.withDecoder d' :=
    congrArg Outcome.state happly
  rw [hstate]
  exact hd'

/-- A list of operations on machines that differ only in what their decoders have seen. -/
theorem run_withDecoder (operations : List Operation) {m : Machine} {d : Decoder}
    (hm : m.decoder.Coherent) (hd : d.Coherent) :
    ∃ d' : Decoder, d'.Coherent ∧
      run operations (m.withDecoder d) = (run operations m).withDecoder d' ∧
      answers operations (m.withDecoder d) = answers operations m := by
  induction operations generalizing m d with
  | nil => exact ⟨d, hd, rfl, rfl⟩
  | cons operation operations ih =>
    obtain ⟨d₁, hd₁, happly⟩ := operation.apply_withDecoder hm hd
    obtain ⟨d', hd', hrun, hanswers⟩ := ih (operation.coherent_apply hm) hd₁
    refine ⟨d', hd', ?_, ?_⟩
    · rw [run_cons, run_cons, happly]
      exact hrun
    · rw [answers, answers, happly]
      exact congrArg _ hanswers

end Operation

namespace Decoder

/-- A decoder with any past answers the next opcode by its nibbles alone, and what it has seen before
shows neither in the answers of a machine nor in the states that it goes through. -/
theorem past_does_not_show :
    (∀ (history : List Opcode) (w : Opcode),
      ((after history).decode w).2 = w.decode ∧
      ((∃ i, ((after history).decode w).2 = .ok i) ↔
        ∃ proto ∈ Instruction.all, w.fits proto.format = .ok true) ∧
      (∀ i, ((after history).decode w).2 = .ok i ↔ i.spelling = w.nibbles.map UInt8.toNat) ∧
      (∀ i, ((after history).decode w).2 = .ok i → i.FieldsFit) ∧
      (∀ fault, ((after history).decode w).2 = .error fault ↔
        (¬ ∃ proto ∈ Instruction.all, w.fits proto.format = .ok true) ∧
          fault = .unknownOpcode w) ∧
      (∀ i, (after history).lookup? w = some i ↔ w ∈ history ∧ w.decode = .ok i) ∧
      (after history).size = (known history).card) ∧
    (∀ (history history' : List Opcode) (w w' : Opcode) (i : Instruction),
      ((after history).decode w).2 = .ok i → ((after history').decode w').2 = .ok i → w = w') ∧
    ∀ (m : Machine) (history history' : List Opcode) (operations : List Operation),
      Operation.answers operations (m.withDecoder (after history)) =
        Operation.answers operations (m.withDecoder (after history')) ∧
      (Operation.run operations (m.withDecoder (after history))).withDecoder {} =
        (Operation.run operations (m.withDecoder (after history'))).withDecoder {} := by
  have hdecode (history : List Opcode) (w : Opcode) : ((after history).decode w).2 = w.decode :=
    decode_of_coherent (coherent_after history) w
  refine ⟨?_, ?_, ?_⟩
  · intro history w
    rw [hdecode]
    refine ⟨rfl, Opcode.exists_decode_eq_ok_iff, fun i => Opcode.decode_eq_ok_iff,
      fun i => Opcode.fieldsFit_of_decode_eq, ?_, ?_, size_after history⟩
    · intro fault
      simp only [Opcode.fits_format, Except.ok.injEq]
      rw [Opcode.decode_eq_error_iff]
      simp
    · intro i
      rw [lookup?_after]
      by_cases hmem : w ∈ history
      · cases w.decode <;> simp [hmem, Except.toOption]
      · simp [hmem]
  · intro history history' w w' i h h'
    rw [hdecode] at h h'
    exact Opcode.eq_of_decode_eq h h'
  · intro m history history' operations
    obtain ⟨d, -, hrun, hanswers⟩ := Operation.run_withDecoder operations
      (m := m.withDecoder (after history')) (coherent_after history') (coherent_after history)
    have hstate : Operation.run operations (m.withDecoder (after history)) =
        (Operation.run operations (m.withDecoder (after history'))).withDecoder d := hrun
    refine ⟨hanswers, ?_⟩
    rw [hstate]
    rfl

/-- A jump decoded once more, after an opcode that no format accepts. -/
theorem past_does_not_show_jump :
    ((after [0x1ABC, 0xFFFF]).decode 0x1ABC).2 = .ok (.jump 0xABC) ∧
      (Instruction.jump 0xABC).FieldsFit ∧
      (after [0x1ABC, 0xFFFF]).lookup? 0x1ABC = some (.jump 0xABC) := by
  obtain ⟨hdecode, -, hok, hfit, -, hfound, -⟩ := past_does_not_show.1 [0x1ABC, 0xFFFF] 0x1ABC
  have hspelled : (Instruction.jump 0xABC).spelling = [0x1, 0xA, 0xB, 0xC] := by
    rw [Instruction.spelling_eq_nibbles]
    rfl
  have hjump := (hok (.jump 0xABC)).mpr hspelled
  exact ⟨hjump, hfit _ hjump, (hfound _).mpr ⟨by decide, hdecode.symm.trans hjump⟩⟩

end Decoder

end Chip8
