import Chip8.Fault

/-!
# Outcomes

An operation on a state leaves a state behind whether it succeeds or not, so an `Outcome` holds both
the state and the result.  An operation of the machine fails either with a `Fault`, which the machine
reports, or because it reached outside the memory, the screen or the frame buffer, which ends the
operation where it stands.  `Outcome.repeatUntil` is the loop that every run is made of, and
`Outcome.visited` lists the states that the loop goes through.
-/

namespace Chip8

/-- Why an operation did not succeed. -/
inductive Failure where
  /-- The machine refused the operation. -/
  | fault (fault : Fault)
  /-- The operation reached outside the memory, the screen or the frame buffer. -/
  | outOfBounds
deriving DecidableEq

/-- What an operation on a state of type `σ` leaves: the state and an answer or an error. -/
structure Outcome (σ ε α : Type) where
  /-- The state after the operation. -/
  state : σ
  /-- The answer, or why there is none. -/
  result : Except ε α

namespace Outcome

variable {σ τ ε α : Type}

/-- The operation succeeded with the answer `a`. -/
def done (s : σ) (a : α) : Outcome σ ε α := ⟨s, .ok a⟩

/-- The operation failed. -/
def fail (s : σ) (e : ε) : Outcome σ ε α := ⟨s, .error e⟩

/-- The machine refused the operation. -/
def refuse (s : σ) (f : Fault) : Outcome σ Failure α := ⟨s, .error (.fault f)⟩

/-- The same outcome for a state that is a part of a larger one. -/
def within (o : Outcome σ ε α) (embed : σ → τ) : Outcome τ ε α := ⟨embed o.state, o.result⟩

/-- Repeats an operation at most `n` times, for as long as `stop` does not hold of the state and the
operation succeeds. -/
def repeatUntil (stop : σ → Bool) (operation : σ → Outcome σ ε α) : Nat → σ → Outcome σ ε Unit
  | 0, s => done s ()
  | n + 1, s =>
    if stop s then done s ()
    else
      match operation s with
      | ⟨s, .ok _⟩ => repeatUntil stop operation n s
      | ⟨s, .error e⟩ => fail s e

/-- The states in which `repeatUntil` carries out the operation, in order. -/
def visited (stop : σ → Bool) (operation : σ → Outcome σ ε α) : Nat → σ → List σ
  | 0, _ => []
  | n + 1, s =>
    if stop s then []
    else
      s ::
        match operation s with
        | ⟨s, .ok _⟩ => visited stop operation n s
        | ⟨_, .error _⟩ => []

theorem eq_done {o : Outcome σ ε α} {a : α} (h : o.result = .ok a) : o = done o.state a := by
  rw [done, ← h]

theorem eq_fail {o : Outcome σ ε α} {e : ε} (h : o.result = .error e) : o = fail o.state e := by
  rw [fail, ← h]

/-- A state in which the loop has to stop is left as it is. -/
theorem repeatUntil_of_stop {stop : σ → Bool} {operation : σ → Outcome σ ε α} {s : σ} (n : Nat)
    (h : stop s = true) : repeatUntil stop operation n s = done s () := by
  cases n <;> simp [repeatUntil, h]

theorem visited_of_stop {stop : σ → Bool} {operation : σ → Outcome σ ε α} {s : σ} (n : Nat)
    (h : stop s = true) : visited stop operation n s = [] := by
  cases n <;> simp [visited, h]

/-- Repeats an operation `n` times, unless it fails before. -/
def repeatTimes (operation : σ → Outcome σ ε α) : Nat → σ → Outcome σ ε Unit :=
  repeatUntil (fun _ => false) operation

end Outcome

end Chip8
