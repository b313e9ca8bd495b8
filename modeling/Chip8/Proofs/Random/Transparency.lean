import Chip8.Proofs.Machine.Effects
import Chip8.Proofs.Machine.Step

/-!
# A source of random bytes that is not drawn from does not show

Only one instruction draws a random byte.  Machines that differ only in their sources answer alike, and
stay alike in everything but their sources, for as long as it is not executed.

* `Machine.Draws` and `Operation.Draws`: the steps and the operations that execute it.
* `Machine.step_withRandom` and `Operation.apply_withRandom`: all others.
* `Operation.run_withRandom`: a list of operations none of which draws (`Operation.DrawsNothing`).
-/

namespace Chip8

namespace Machine

/-- The machine with another source of random bytes. -/
def withRandom (m : Machine) (r : Random) : Machine := { m with random := r }

/-! ## Instructions -/

theorem awaitKey_withRandom (m : Machine) (r : Random) (x : UInt8) :
    (m.withRandom r).awaitKey x = (m.awaitKey x).withRandom r := by
  cases h : m.keypad.firstPressed? <;> simp [awaitKey, withRandom, h, setReg]

theorem draw_withRandom (m : Machine) (r : Random) (x y n : UInt8) :
    (m.withRandom r).draw x y n = (m.draw x y n).within (·.withRandom r) := by
  have hdots : spriteDots ((m.withRandom r).reg y).toNat ((m.withRandom r).reg x).toNat
      ((m.withRandom r).sprite n) = spriteDots (m.reg y).toNat (m.reg x).toNat (m.sprite n) := rfl
  have hscreen : (m.withRandom r).screen = m.screen := rfl
  rw [draw, draw, hdots, hscreen]
  obtain ⟨screen, _ | _⟩ := m.screen.plot false _ <;> rfl

/-- Every instruction but one does the same whatever the source is. -/
theorem execute_withRandom {i : Instruction} (hi : ∀ x byte, i ≠ .random x byte) (m : Machine)
    (r : Random) : i.execute (m.withRandom r) = (i.execute m).within (·.withRandom r) := by
  cases i with
  | ret =>
    have hstack : (m.withRandom r).stack = m.stack := rfl
    simp only [Instruction.execute, hstack]
    cases m.stack.pop <;> rfl
  | random x byte => exact absurd rfl (hi x byte)
  | draw x y n => exact m.draw_withRandom r x y n
  | waitKey x => exact congrArg (Outcome.done · ()) (m.awaitKey_withRandom r x)
  | storeDecimal x =>
    simp only [Instruction.execute, writeBytes_eq]
    rfl
  | storeRegs x =>
    simp only [Instruction.execute, passBlock_eq, writeBytes_eq]
    rfl
  | loadRegs x =>
    simp only [Instruction.execute, passBlock_eq, readRegisters_eq]
    rfl
  | _ => rfl

theorem moveOn_withRandom (m : Machine) (r : Random) (i : Instruction) :
    (m.withRandom r).moveOn i = (m.moveOn i).withRandom r := by
  cases hstays : i.isJump || m.blocked <;> simp [moveOn, withRandom, hstays]

theorem perform_withRandom {i : Instruction} (hi : ∀ x byte, i ≠ .random x byte) (m : Machine)
    (r : Random) : (m.withRandom r).perform i = (m.perform i).within (·.withRandom r) := by
  have hexecute : i.execute { m.withRandom r with executing := true } =
      (i.execute { m with executing := true }).within (·.withRandom r) :=
    execute_withRandom hi { m with executing := true } r
  rw [perform, perform, hexecute]
  obtain ⟨m', (fault | _) | _⟩ := i.execute { m with executing := true }
  · rfl
  · rfl
  · exact congrArg (Outcome.done · ()) (moveOn_withRandom { m' with executing := false } r i)

/-! ## Steps -/

/-- The next step draws a random byte. -/
def Draws (m : Machine) : Prop :=
  m.hasHalted = false ∧ m.executing = false ∧
    ∃ w x byte, m.nextOpcode = some w ∧ (m.decode w).result = .ok (.random x byte)

/-- What the decoder has seen plays no part in it. -/
theorem draws_iff {m : Machine} (h : m.decoder.Coherent) :
    m.Draws ↔ m.hasHalted = false ∧ m.executing = false ∧
      ∃ w x byte, m.nextOpcode = some w ∧ w.decode = .ok (.random x byte) := by
  have hresult (w : Opcode) (i : Instruction) :
      (m.decode w).result = .ok i ↔ w.decode = .ok i := by
    rw [decode_eq h]
    cases w.decode <;> simp [Except.mapError]
  simp only [Draws, hresult]

theorem step_withRandom {m : Machine} (h : ¬ m.Draws) (r : Random) :
    (m.withRandom r).step = m.step.within (·.withRandom r) := by
  have hhalted : (m.withRandom r).hasHalted = m.hasHalted := rfl
  have hexecuting : (m.withRandom r).executing = m.executing := rfl
  have hopcode : (m.withRandom r).nextOpcode = m.nextOpcode := rfl
  unfold step
  rw [hhalted, hexecuting, hopcode]
  split
  · rfl
  split
  · rfl
  rename_i hrunning hidle
  cases hnext : m.nextOpcode with
  | none => rfl
  | some w =>
    have hother : ∀ x byte, (m.decode w).result ≠ .ok (.random x byte) := fun x byte hdecode =>
      h ⟨by simpa using hrunning, by simpa using hidle, w, x, byte, hnext, hdecode⟩
    have hdecode : (m.withRandom r).decode w = (m.decode w).within (·.withRandom r) := rfl
    dsimp only
    rw [hdecode]
    generalize m.decode w = outcome at hother ⊢
    obtain ⟨m', _ | i⟩ := outcome
    · rfl
    · exact perform_withRandom (fun x byte hi => hother x byte (congrArg Except.ok hi)) m' r

theorem peek_withRandom (m : Machine) (r : Random) :
    (m.withRandom r).peek = m.peek.within (·.withRandom r) := by
  have hopcode : (m.withRandom r).nextOpcode = m.nextOpcode := rfl
  unfold peek
  rw [hopcode]
  cases m.nextOpcode with
  | none => rfl
  | some w =>
    have hdecode : (m.withRandom r).decode w = (m.decode w).within (·.withRandom r) := rfl
    dsimp only
    rw [hdecode]
    obtain ⟨m', _ | _⟩ := m.decode w <;> rfl

/-! ## Operations -/

theorem loadAt_withRandom (m : Machine) (r : Random) (program : Array UInt8) (origin : UInt16) :
    (m.withRandom r).loadAt program origin = (m.loadAt program origin).within (·.withRandom r) := by
  have hroom : (m.withRandom r).hasRoomFor program.size origin =
      m.hasRoomFor program.size origin := rfl
  unfold loadAt
  rw [hroom]
  split <;> rfl

theorem poke_withRandom (m : Machine) (r : Random) (address : Nat) (bytes : Array UInt8) :
    (m.withRandom r).poke address bytes = (m.poke address bytes).within (·.withRandom r) := by
  have hsize : (m.withRandom r).memory.size = m.memory.size := rfl
  unfold poke
  rw [hsize, writeBytes_eq, writeBytes_eq]
  split <;> rfl

theorem setKey_withRandom (m : Machine) (r : Random) (key : UInt8) (down : Bool) :
    (m.withRandom r).setKey key down = (m.setKey key down).within (·.withRandom r) := by
  have hkeypad : (m.withRandom r).keypad = m.keypad := rfl
  unfold setKey
  rw [hkeypad]
  cases m.keypad.set key down <;> rfl

end Machine

namespace Operation

open Machine

/-- The operation draws a random byte. -/
def Draws (m : Machine) : Operation → Prop
  | step => m.Draws
  | execute (.random _ _) => True
  | _ => False

/-- None of the operations, carried out one after the other, draws a random byte. -/
def DrawsNothing : List Operation → Machine → Prop
  | [], _ => True
  | operation :: operations, m =>
    ¬ operation.Draws m ∧ DrawsNothing operations (operation.apply m).state

theorem apply_withRandom {operation : Operation} {m : Machine} (h : ¬ operation.Draws m)
    (r : Random) :
    operation.apply (m.withRandom r) = (operation.apply m).within (·.withRandom r) := by
  cases operation with
  | load program =>
    exact congrArg Outcome.toAnswer (m.loadAt_withRandom r program m.config.loadAddress)
  | loadAt program origin => exact congrArg Outcome.toAnswer (m.loadAt_withRandom r program origin)
  | step => exact congrArg Outcome.toAnswer (step_withRandom h r)
  | peek =>
    simp only [apply, peek_withRandom]
    rfl
  | execute i =>
    have hi : ∀ x byte, i ≠ .random x byte := by
      rintro x byte rfl
      exact h trivial
    exact congrArg Outcome.toAnswer (execute_withRandom hi m r)
  | setDelay value =>
    simp only [apply, setTimer]
    cases Timer.set? value <;> rfl
  | setSound value =>
    simp only [apply, setTimer]
    cases Timer.set? value <;> rfl
  | poke address bytes => exact congrArg Outcome.toAnswer (m.poke_withRandom r address bytes)
  | keyDown key => exact congrArg Outcome.toAnswer (m.setKey_withRandom r key true)
  | keyUp key => exact congrArg Outcome.toAnswer (m.setKey_withRandom r key false)
  | pop =>
    have hstack : (m.withRandom r).stack = m.stack := rfl
    simp only [apply, hstack]
    cases m.stack.pop <;> rfl
  | top =>
    have hstack : (m.withRandom r).stack = m.stack := rfl
    simp only [apply, hstack]
    cases m.stack.top <;> rfl
  | _ => rfl

/-- A list of operations on machines that differ only in their sources. -/
theorem run_withRandom {operations : List Operation} {m : Machine} (h : DrawsNothing operations m)
    (r : Random) :
    run operations (m.withRandom r) = (run operations m).withRandom r ∧
      answers operations (m.withRandom r) = answers operations m := by
  induction operations generalizing m with
  | nil => exact ⟨rfl, rfl⟩
  | cons operation operations ih =>
    obtain ⟨hfirst, hrest⟩ := h
    have happly := apply_withRandom hfirst r
    obtain ⟨hrun, hanswers⟩ := ih hrest
    rw [run_cons, run_cons, answers, answers, happly]
    exact ⟨hrun, congrArg _ hanswers⟩

end Operation

end Chip8
