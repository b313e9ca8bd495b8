import Chip8.Journal.Machine
import Chip8.Proofs.Machine.FallingThrough

/-!
# Looking ahead

A look at the instruction at the program counter decodes it, and so may add it to what the decoder
remembers.  The step that follows decodes the same opcode again and finds it there.

* `Machine.step_seeing`: a step does the same, to the last detail, whether its opcode has been looked at
  or not.  So a cycle is a step (`Machine.cycle_eq_step`), and the cycles of a frame are steps
  (`Machine.Sound.cycles_eq_steps`), whether instructions are looked at or not.
* `Machine.Executes`: the instruction that a step executes.  A look ahead tells what a step will do:
  whether it will halt, whether it will fail to decode, and otherwise what it will execute
  (`Machine.peek_eq_none_iff`, `Machine.peek_eq_error_iff`, `Machine.peek_eq_some_iff`).
* `Machine.Looked`: a machine that has been looked at.  Looks between steps do not show in any step
  (`Machine.HaltsAtEnd.run_looks`).
* `Operation.withoutLooks`: among other operations too, looks show in nothing but what the decoder
  remembers (`Operation.run_withoutLooks`).
* `Machine.filter_cyclesEvents`: the journal of cycles that look ahead has more events, all of them of the
  kind that tells of a look.
-/

namespace Chip8

open Journal (Event)

namespace Machine

/-! ## The step after a look -/

theorem seeing_seeing (m : Machine) (w : Opcode) : (m.seeing w).seeing w = m.seeing w := by
  have hdecoder : ((m.seeing w).decoder.decode w).1 = (m.seeing w).decoder :=
    congrArg Prod.fst (m.decoder.decode_decode w)
  rw [seeing, hdecoder]
  rfl

/-- An opcode that has been looked at is decoded as before. -/
theorem decode_seeing (m : Machine) (w : Opcode) : (m.seeing w).decode w = m.decode w := by
  have hdecode : (m.seeing w).decoder.decode w = m.decoder.decode w := m.decoder.decode_decode w
  simp only [decode, hdecode]
  rfl

theorem step_seeing {m : Machine} {w : Opcode} (hrunning : m.exitCode = none)
    (hidle : m.executing = false) (hopcode : m.nextOpcode = some w) : (m.seeing w).step = m.step := by
  have hhalted := hasHalted_eq_false_iff.mpr hrunning
  have hhalted' : (m.seeing w).hasHalted = false := hhalted
  have hidle' : (m.seeing w).executing = false := hidle
  have hopcode' : (m.seeing w).nextOpcode = some w := hopcode
  simp only [step, hhalted, hhalted', hidle, hidle', hopcode, hopcode', decode_seeing, Bool.false_eq_true,
    if_false]

theorem state_peek (m : Machine) :
    m.peek.state = match m.nextOpcode with
      | none => m
      | some w => m.seeing w := by
  unfold peek
  cases m.nextOpcode with
  | none => rfl
  | some w =>
    have hstate : (m.decode w).state = m.seeing w := rfl
    dsimp only
    generalize m.decode w = outcome at hstate ⊢
    obtain ⟨m', _ | i⟩ := outcome <;> exact hstate

/-- A cycle is a step, whether the instruction is looked at before or not. -/
theorem cycle_eq_step {m : Machine} (hrunning : m.exitCode = none) (hidle : m.executing = false)
    (inspect : Bool) : m.cycle inspect = m.step := by
  cases inspect with
  | false => rfl
  | true =>
    rw [cycle, if_pos rfl]
    cases hopcode : m.nextOpcode with
    | none => simp only [peek, hopcode, Outcome.done]
    | some w =>
      have hhalted := hasHalted_eq_false_iff.mpr hrunning
      have hseen := step_seeing hrunning hidle hopcode
      have hstate : (m.decode w).state = m.seeing w := rfl
      cases hdecode : m.decode w with
      | mk m' result =>
        rw [hdecode] at hstate
        obtain rfl : m' = m.seeing w := hstate
        cases result with
        | error failure =>
          simp only [peek, step, hopcode, hdecode, hhalted, hidle, Outcome.fail, Bool.false_eq_true,
            if_false]
        | ok i => simpa only [peek, hopcode, hdecode, Outcome.done] using hseen

/-- The cycles of a frame are steps. -/
theorem Sound.cycles_eq_steps {m : Machine} (h : m.Sound) (inspect : Bool) (n : Nat) :
    m.cycles inspect n = m.steps n := by
  induction n generalizing m with
  | zero => rfl
  | succ n ih =>
    cases hhalted : m.hasHalted with
    | true =>
      have hstep : m.step = .done m () := by rw [Machine.step, if_pos hhalted]
      rw [Machine.cycles, Outcome.repeatUntil_of_stop (n + 1) hhalted, steps_of_step_eq hstep]
    | false =>
      have hcycle := cycle_eq_step (hasHalted_eq_false_iff.mp hhalted) h.executing inspect
      rw [Machine.cycles, Outcome.repeatUntil_succ hhalted, hcycle, steps, Outcome.repeatTimes,
        Outcome.repeatUntil_succ rfl]
      cases m.step.result with
      | error failure => rfl
      | ok answer => exact ih h.step

/-! ## What a look ahead tells -/

/-- A step of the machine executes the instruction: the opcode at the program counter stands for it,
and the step applies it to the machine that has decoded this opcode. -/
structure Executes (m : Machine) (i : Instruction) : Prop where
  running : m.exitCode = none
  opcode : ∃ w, m.nextOpcode = some w ∧ w.decode = .ok i ∧ m.step = (m.seeing w).perform i

section Telling

variable {m : Machine} (h : m.Sound) (hrunning : m.exitCode = none)

include h

theorem result_peek :
    m.peek.result =
      match m.nextOpcode with
      | none => .ok none
      | some w => (w.decode.mapError .fault).map some := by
  rw [peek_eq h.decoder]
  cases m.nextOpcode <;> rfl

include hrunning

/-- A look ahead finds the end of the program exactly if the step halts. -/
theorem peek_eq_none_iff :
    m.peek.result = .ok none ↔ m.step = .done { m with exitCode := some 0 } () := by
  rw [halts_iff h hrunning, result_peek h]
  cases m.nextOpcode with
  | none => simp
  | some w =>
    dsimp only
    generalize w.decode = decoded
    cases decoded <;> simp [Except.map, Except.mapError]

/-- A look ahead fails exactly if the step fails to decode, and for the same reason. -/
theorem peek_eq_error_iff {failure : Failure} :
    m.peek.result = .error failure ↔
      m.step.result = .error failure ∧ ∃ fault, failure = .fault fault ∧ fault.isDecode := by
  rw [result_peek h]
  cases h.stepped with
  | halted hhalted _ => exact absurd hrunning (hasHalted_iff.mp hhalted)
  | halts _ hopcode hstep => simp [hopcode, hstep, Outcome.done]
  | unknown w _ hopcode hdecode hstep =>
    simp only [hopcode, hdecode, hstep, Outcome.refuse, Except.mapError, Except.map, Except.error.injEq]
    constructor
    · rintro rfl
      exact ⟨rfl, _, rfl, rfl⟩
    · exact And.left
  | refused w i fault _ hopcode hdecode hexecute hstep =>
    have hresult : (i.execute m).result = .error (.fault fault) := by rw [hexecute]; rfl
    simp only [hopcode, hdecode, hstep, Outcome.refuse, Except.mapError, Except.map, reduceCtorEq,
      Except.error.injEq, false_iff]
    -- What an instruction is refused for has nothing to do with decoding.
    rintro ⟨rfl, _, hfault, hdecoding⟩
    cases hfault
    rcases (Instruction.execute_eq_error_iff h.screen).mp hresult with ⟨-, -, heq⟩ | ⟨-, heq⟩
    · cases heq
      cases hdecoding
    · cases heq
      cases hdecoding
  | performed w i m' _ hopcode hdecode _ hstep =>
    simp [hopcode, hdecode, hstep, Outcome.done, Except.mapError, Except.map]

/-- A look ahead shows an instruction exactly if the step executes it. -/
theorem peek_eq_some_iff {i : Instruction} : m.peek.result = .ok (some i) ↔ m.Executes i := by
  rw [result_peek h]
  constructor
  · intro hresult
    cases hopcode : m.nextOpcode with
    | none =>
      rw [hopcode] at hresult
      cases hresult
    | some w =>
      cases hdecode : w.decode with
      | error fault =>
        simp only [hopcode, hdecode] at hresult
        cases hresult
      | ok i' =>
        simp only [hopcode, hdecode] at hresult
        cases hresult
        refine ⟨hrunning, w, hopcode, hdecode, ?_⟩
        simp only [h.step_of_running hrunning, hopcode, hdecode]
  · rintro ⟨-, w, hopcode, hdecode, -⟩
    simp only [hopcode, hdecode]
    rfl

end Telling

/-! ## Looks between steps -/

/-- The machine is sound and, if it has halted, stands where its program ends. -/
structure HaltsAtEnd (m : Machine) : Prop where
  sound : m.Sound
  ended : m.exitCode ≠ none → m.nextOpcode = none

namespace HaltsAtEnd

variable {m : Machine}

theorem of_running (h : m.Sound) (hrunning : m.exitCode = none) : m.HaltsAtEnd :=
  ⟨h, fun hhalted => absurd hrunning hhalted⟩

theorem step (h : m.HaltsAtEnd) : m.step.state.HaltsAtEnd := by
  cases h.sound.stepped with
  | halted hhalted hstep =>
    rw [hstep]
    exact h
  | halts _ hopcode hstep =>
    refine ⟨h.sound.step, fun _ => ?_⟩
    rw [hstep]
    exact hopcode
  | unknown w hrunning _ _ hstep =>
    refine of_running h.sound.step ?_
    rw [hstep]
    exact hasHalted_eq_false_iff.mp hrunning
  | refused w i fault hrunning _ _ _ hstep =>
    refine of_running h.sound.step ?_
    rw [hstep]
    exact hasHalted_eq_false_iff.mp hrunning
  | performed w i m' hrunning _ _ hexecute hstep =>
    have hexit := i.exitCode_execute m
    rw [hexecute] at hexit
    refine of_running h.sound.step ?_
    rw [hstep, moveOn_eq]
    exact hexit.trans (hasHalted_eq_false_iff.mp hrunning)

theorem run_step (h : m.HaltsAtEnd) (n : Nat) :
    (Operation.run (List.replicate n .step) m).HaltsAtEnd := by
  induction n generalizing m with
  | zero => exact h
  | succ n ih => exact ih h.step

end HaltsAtEnd

/-- The second machine is the first, or the first with the opcode at its program counter looked at. -/
def Looked (m m' : Machine) : Prop := m' = m ∨ ∃ w, m.nextOpcode = some w ∧ m' = m.seeing w

namespace Looked

variable {m m' : Machine}

theorem peek (h : Looked m m') : Looked m m'.peek.state := by
  rcases h with rfl | ⟨w, hopcode, rfl⟩
  · rw [state_peek]
    cases hopcode : m'.nextOpcode with
    | none => exact .inl rfl
    | some w => exact .inr ⟨w, hopcode, rfl⟩
  · have hopcode' : (m.seeing w).nextOpcode = some w := hopcode
    rw [state_peek, hopcode']
    exact .inr ⟨w, hopcode, seeing_seeing m w⟩

theorem run_peek (h : Looked m m') (n : Nat) :
    Looked m (Operation.run (List.replicate n .peek) m') := by
  induction n generalizing m' with
  | zero => exact h
  | succ n ih => exact ih h.peek

/-- A look does not show in the next step. -/
theorem step_eq (h : Looked m m') (hm : m.HaltsAtEnd) : m'.step = m.step := by
  rcases h with rfl | ⟨w, hopcode, rfl⟩
  · rfl
  · have hrunning : m.exitCode = none := by
      refine Classical.byContradiction fun hhalted => ?_
      rw [hm.ended hhalted] at hopcode
      cases hopcode
    exact step_seeing hrunning hm.sound.executing hopcode

end Looked

/-- Looks do not show in the step after them. -/
theorem HaltsAtEnd.step_run_peek {m : Machine} (h : m.HaltsAtEnd) (n : Nat) :
    (Operation.run (List.replicate n .peek) m).step = m.step :=
  (Looked.run_peek (.inl rfl) n).step_eq h

/-- Steps with any number of looks before each of them end where the steps alone do. -/
theorem HaltsAtEnd.run_looks {m : Machine} (h : m.HaltsAtEnd) (looks : List Nat) :
    Operation.run (looks.flatMap fun n => List.replicate n .peek ++ [.step]) m =
      Operation.run (List.replicate looks.length .step) m := by
  induction looks generalizing m with
  | nil => rfl
  | cons n looks ih =>
    rw [List.flatMap_cons, Operation.run_append, Operation.run_append, List.length_cons,
      List.replicate_succ, Operation.run_cons]
    show Operation.run _ (Operation.run (List.replicate n .peek) m).step.state =
      Operation.run _ m.step.state
    rw [h.step_run_peek]
    exact ih h.step

end Machine

/-! ## Looks among other operations -/

namespace Operation

/-- Whether the operation is a look ahead. -/
def isPeek : Operation → Bool
  | peek => true
  | _ => false

theorem isPeek_iff {operation : Operation} : operation.isPeek = true ↔ operation = .peek := by
  cases operation <;> simp [isPeek]

/-- The operations other than looks. -/
def withoutLooks (operations : List Operation) : List Operation :=
  operations.filter fun operation => !operation.isPeek

/-- What the host learns from the operations other than looks, one after the other. -/
def otherAnswers : List Operation → Machine → List (Except Failure Answer)
  | [], _ => []
  | operation :: operations, m =>
    (if operation.isPeek then [] else [(operation.apply m).result]) ++
      otherAnswers operations (operation.apply m).state

/-- A list of operations, looks among them, and the other operations alone on a machine that differs in
what its decoder has seen. -/
theorem run_withoutLooks_withDecoder (operations : List Operation) {m : Machine} {d : Decoder}
    (hm : m.decoder.Coherent) (hd : d.Coherent) :
    ∃ d' : Decoder, d'.Coherent ∧
      run operations (m.withDecoder d) = (run (withoutLooks operations) m).withDecoder d' ∧
      otherAnswers operations (m.withDecoder d) = answers (withoutLooks operations) m := by
  induction operations generalizing m d with
  | nil => exact ⟨d, hd, rfl, rfl⟩
  | cons operation operations ih =>
    cases hpeek : operation.isPeek with
    | true =>
      obtain rfl := isPeek_iff.mp hpeek
      obtain ⟨d₁, hd₁, hstate⟩ : ∃ d₁ : Decoder, d₁.Coherent ∧
          ((peek.apply (m.withDecoder d)).state = m.withDecoder d₁) := by
        have hopcode : (m.withDecoder d).nextOpcode = m.nextOpcode := rfl
        simp only [apply, Machine.state_peek, hopcode]
        cases m.nextOpcode with
        | none => exact ⟨d, hd, rfl⟩
        | some w => exact ⟨(d.decode w).1, hd.decode w, rfl⟩
      obtain ⟨d', hd', hrun, hanswers⟩ := ih hm hd₁
      refine ⟨d', hd', ?_, ?_⟩
      · rw [run_cons, hstate]
        exact hrun
      · rw [otherAnswers, hstate]
        exact hanswers
    | false =>
      obtain ⟨d₁, hd₁, happly⟩ := operation.apply_withDecoder hm hd
      obtain ⟨d', hd', hrun, hanswers⟩ := ih (operation.coherent_apply hm) hd₁
      have hother : withoutLooks (operation :: operations) = operation :: withoutLooks operations := by
        simp [withoutLooks, hpeek]
      refine ⟨d', hd', ?_, ?_⟩
      · rw [hother, run_cons, run_cons, happly]
        exact hrun
      · rw [hother, otherAnswers, answers, happly, hpeek]
        exact congrArg _ hanswers

/-- Looks among other operations show neither in what these answer nor, but for the memory of the
decoder, in the machine that they leave. -/
theorem run_withoutLooks (operations : List Operation) {m : Machine} (hm : m.decoder.Coherent) :
    (run operations m).withDecoder {} = (run (withoutLooks operations) m).withDecoder {} ∧
      otherAnswers operations m = answers (withoutLooks operations) m := by
  obtain ⟨d', -, hrun, hanswers⟩ := run_withoutLooks_withDecoder operations hm hm
  have hrun' : run operations m = (run (withoutLooks operations) m).withDecoder d' := hrun
  refine ⟨?_, hanswers⟩
  rw [hrun']
  rfl

end Operation

/-! ## The journal -/

/-- Whether the event tells that an instruction was looked at before a step. -/
def Journal.Event.tellsLook : Event → Bool
  | .inspected .. => true
  | _ => false

/-- A decoder that has decoded an opcode has nothing to tell of it any more. -/
theorem Decoder.events_decode {d : Decoder} {w : Opcode} {i : Instruction} (h : w.decode = .ok i) :
    (d.decode w).1.events w = [] := by
  have hknown : ((d.decode w).1.lookup? w).isSome = true := by
    obtain ⟨i', hfound, heq⟩ | ⟨fault, -, hdecode, -⟩ | ⟨i', -, -, heq⟩ := d.decode_cases w
    · rw [heq, hfound, Option.isSome_some]
    · simp [h] at hdecode
    · rw [heq, lookup?_remember, if_pos rfl, Option.isSome_some]
  rw [events, if_pos hknown]

theorem Decoder.filter_events (d : Decoder) (w : Opcode) :
    (d.events w).filter (!·.tellsLook) = d.events w := by
  unfold events
  split
  · rfl
  · cases w.decode <;> rfl

namespace Machine

/-- A step tells of no look. -/
theorem filter_stepEvents (m : Machine) : m.stepEvents.filter (!·.tellsLook) = m.stepEvents := by
  unfold stepEvents
  split
  · rfl
  · cases m.nextOpcode with
    | none => rfl
    | some w =>
      dsimp only
      rw [List.filter_append, Decoder.filter_events]
      cases w.decode with
      | error fault => rfl
      | ok i =>
        dsimp only
        unfold Instruction.events
        split <;> rfl

/-- The events of a step that goes on to execute an instruction. -/
theorem stepEvents_of_decode {m : Machine} {w : Opcode} {i : Instruction}
    (hrunning : m.exitCode = none) (hidle : m.executing = false) (hopcode : m.nextOpcode = some w)
    (hdecode : w.decode = .ok i) :
    m.stepEvents = m.decoder.events w ++ .executing m.pc w i :: i.events m := by
  simp only [stepEvents, hasHalted_eq_false_iff.mpr hrunning, hidle, hopcode, hdecode, Bool.or_self,
    Bool.false_eq_true, if_false]

/-- A cycle that looks ahead tells of it, and apart from that tells what the step tells. -/
theorem filter_cycleEvents {m : Machine} (h : m.Sound) (hrunning : m.exitCode = none)
    (inspect : Bool) : (m.cycleEvents inspect).filter (!·.tellsLook) = m.stepEvents := by
  cases inspect with
  | false => exact m.filter_stepEvents
  | true =>
    rw [cycleEvents, if_pos rfl, List.filter_append, peek_eq h.decoder, peekEvents]
    cases hopcode : m.nextOpcode with
    | none => exact m.filter_stepEvents
    | some w =>
      dsimp only
      rw [Decoder.filter_events]
      cases hdecode : w.decode with
      | error fault =>
        simp only [stepEvents, hasHalted_eq_false_iff.mpr hrunning, h.executing, hopcode, hdecode,
          Bool.or_self, Bool.false_eq_true, if_false]
        rfl
      | ok i =>
        -- After the look the step has the opcode in memory and does not tell that it was decoded.
        have hseen : (m.seeing w).stepEvents = .executing m.pc w i :: i.events m := by
          have hknown : (m.seeing w).decoder.events w = [] := Decoder.events_decode hdecode
          have hevents := stepEvents_of_decode (m := m.seeing w) hrunning h.executing hopcode hdecode
          rw [hknown] at hevents
          exact hevents
        have hfilter := (m.seeing w).filter_stepEvents
        rw [hseen] at hfilter
        rw [stepEvents_of_decode hrunning h.executing hopcode hdecode]
        show _ ++ List.filter _ (_ :: (m.seeing w).stepEvents) = _
        rw [hseen, List.filter_cons_of_neg (by simp [Event.tellsLook]), hfilter]

/-- The journal of cycles that look ahead is that of cycles that do not, and the events that tell of the
looks. -/
theorem filter_cyclesEvents {m : Machine} (h : m.Sound) (inspect : Bool) (n : Nat) :
    (m.cyclesEvents inspect n).filter (!·.tellsLook) = m.cyclesEvents false n := by
  unfold cyclesEvents
  induction n generalizing m with
  | zero => rfl
  | succ n ih =>
    cases hhalted : m.hasHalted with
    | true =>
      rw [Outcome.visited_of_stop (n + 1) hhalted, Outcome.visited_of_stop (n + 1) hhalted]
      rfl
    | false =>
      have hrunning := hasHalted_eq_false_iff.mp hhalted
      rw [Outcome.visited_succ hhalted, Outcome.visited_succ hhalted,
        cycle_eq_step hrunning h.executing, cycle_eq_step hrunning h.executing, List.flatMap_cons,
        List.flatMap_cons, List.filter_append, filter_cycleEvents h hrunning]
      cases m.step.result with
      | error failure => rfl
      | ok answer => exact congrArg (m.stepEvents ++ ·) (ih h.step)

end Machine

end Chip8
