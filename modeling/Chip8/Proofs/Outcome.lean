import Mathlib.Data.List.Forall2
import Chip8.Outcome

/-!
# Loops

Every run is `Outcome.repeatUntil`, and `Outcome.visited` lists the states in which the loop makes a
step.

* `repeatUntil_related`: a relation that holds between the states before and after every step holds
  between the start and the end.
* `repeatUntil_keeps`: what every step keeps holds at the end, and what is true of every error of a step
  is true of the error that ends the loop.
* `visited_induction`: what holds of the start, and of the state after a step when it holds of the
  state before, holds of every state that is visited.
* `passed`: the states that the loop reaches.  What a step keeps of a state and of the states reached
  before it holds all along (`passed_history`) and at the end, of which there are two kinds
  (`repeatUntil_cases`).
* `Lockstep`: two loops that keep their states related step by step.  They end in related states
  (`Lockstep.repeatUntil`) and go through related states (`Lockstep.visited`).
-/

namespace Chip8

namespace Outcome

variable {σ ε α : Type} {stop : σ → Bool} {operation : σ → Outcome σ ε α}

/-- A loop that does not stop at once makes a step and goes on from there, if the step succeeds. -/
theorem repeatUntil_succ {s : σ} (h : stop s = false) (n : Nat) :
    repeatUntil stop operation (n + 1) s =
      match (operation s).result with
      | .ok _ => repeatUntil stop operation n (operation s).state
      | .error e => fail (operation s).state e := by
  rw [repeatUntil, if_neg (by simp [h])]
  obtain ⟨s', _ | _⟩ := operation s <;> rfl

theorem visited_succ {s : σ} (h : stop s = false) (n : Nat) :
    visited stop operation (n + 1) s =
      s :: match (operation s).result with
        | .ok _ => visited stop operation n (operation s).state
        | .error _ => [] := by
  rw [visited, if_neg (by simp [h])]
  obtain ⟨s', _ | _⟩ := operation s <;> rfl

/-! ## Relations -/

section Relations

variable {R : σ → σ → Prop} (hrefl : ∀ s, R s s) (htrans : ∀ {s s' s''}, R s s' → R s' s'' → R s s'')
  (hoperation : ∀ s, R s (operation s).state)

include hrefl htrans hoperation

theorem repeatUntil_related (n : Nat) (s : σ) : R s (repeatUntil stop operation n s).state := by
  induction n generalizing s with
  | zero => exact hrefl s
  | succ n ih =>
    cases hstop : stop s with
    | true =>
      rw [repeatUntil_of_stop (n + 1) hstop]
      exact hrefl s
    | false =>
      rw [repeatUntil_succ hstop]
      cases (operation s).result with
      | ok a => exact htrans (hoperation s) (ih _)
      | error e => exact hoperation s

end Relations

/-! ## Invariants -/

theorem repeatUntil_keeps {P : σ → Prop} {Q : ε → Prop}
    (hstep : ∀ s, P s → P (operation s).state ∧ ∀ e, (operation s).result = .error e → Q e)
    (n : Nat) {s : σ} (h : P s) :
    P (repeatUntil stop operation n s).state ∧
      ∀ e, (repeatUntil stop operation n s).result = .error e → Q e := by
  have hdone {s : σ} (h : P s) : P s ∧ ∀ e, (done s () : Outcome σ ε Unit).result = .error e → Q e :=
    ⟨h, fun e hresult => nomatch hresult⟩
  induction n generalizing s with
  | zero => exact hdone h
  | succ n ih =>
    cases hstop : stop s with
    | true =>
      rw [repeatUntil_of_stop (n + 1) hstop]
      exact hdone h
    | false =>
      obtain ⟨hstate, hresult⟩ := hstep s h
      rw [repeatUntil_succ hstop]
      cases hanswer : (operation s).result with
      | ok a => exact ih hstate
      | error e =>
        refine ⟨hstate, fun e' he => ?_⟩
        cases he
        exact hresult e hanswer

/-- A property of a state and the number of steps before it. -/
theorem visited_induction {P : Nat → σ → Prop}
    (hstep : ∀ k s a, P k s → stop s = false → (operation s).result = .ok a →
      P (k + 1) (operation s).state)
    {n k first : Nat} {s s' : σ} (hstart : P first s)
    (h : (visited stop operation n s)[k]? = some s') : P (first + k) s' := by
  induction n generalizing s first k with
  | zero => simp [visited] at h
  | succ n ih =>
    cases hstop : stop s with
    | true =>
      rw [visited_of_stop (n + 1) hstop] at h
      cases h
    | false =>
      rw [visited_succ hstop] at h
      cases k with
      | zero =>
        cases h
        exact hstart
      | succ k =>
        rw [List.getElem?_cons_succ] at h
        cases hresult : (operation s).result with
        | ok a =>
          rw [hresult] at h
          have hnext := ih (hstep first s a hstart hstop hresult) h
          rwa [Nat.add_assoc, Nat.add_comm 1 k] at hnext
        | error e =>
          rw [hresult] at h
          cases h

/-! ## The states that are reached -/

/-- The states after the steps of a loop that succeed, in order. -/
def passed (stop : σ → Bool) (operation : σ → Outcome σ ε α) : Nat → σ → List σ
  | 0, _ => []
  | n + 1, s =>
    if stop s then []
    else
      match operation s with
      | ⟨s, .ok _⟩ => s :: passed stop operation n s
      | ⟨_, .error _⟩ => []

theorem passed_of_stop {s : σ} (n : Nat) (h : stop s = true) : passed stop operation n s = [] := by
  cases n <;> simp [passed, h]

theorem passed_succ {s : σ} (h : stop s = false) (n : Nat) :
    passed stop operation (n + 1) s =
      match (operation s).result with
      | .ok _ => (operation s).state :: passed stop operation n (operation s).state
      | .error _ => [] := by
  rw [passed, if_neg (by simp [h])]
  obtain ⟨s', _ | _⟩ := operation s <;> rfl

section History

variable {P : List σ → σ → Prop}
  (hstep : ∀ past s a, P past s → stop s = false → (operation s).result = .ok a →
    P (past ++ [(operation s).state]) (operation s).state)

include hstep

/-- A property of a state and the states that were reached before it and with it. -/
theorem passed_history {n k : Nat} {past : List σ} {s s' : σ} (hstart : P past s)
    (h : (passed stop operation n s)[k]? = some s') :
    P (past ++ (passed stop operation n s).take (k + 1)) s' := by
  induction n generalizing past s k with
  | zero => simp [passed] at h
  | succ n ih =>
    cases hstop : stop s with
    | true =>
      rw [passed_of_stop (n + 1) hstop] at h
      cases h
    | false =>
      rw [passed_succ hstop] at h ⊢
      cases hresult : (operation s).result with
      | error e =>
        rw [hresult] at h
        cases h
      | ok a =>
        have hnext := hstep past s a hstart hstop hresult
        rw [hresult] at h
        cases k with
        | zero =>
          cases h
          exact hnext
        | succ k =>
          rw [List.getElem?_cons_succ] at h
          rw [List.take_succ_cons, List.append_cons]
          exact ih hnext h

/-- A loop ends where it has to stop or after the last step, or with a step that fails. -/
theorem repeatUntil_cases {past : List σ} {s : σ} (hstart : P past s) (n : Nat) :
    (∃ s', repeatUntil stop operation n s = done s' () ∧
      P (past ++ passed stop operation n s) s' ∧
      (stop s' = true ∨ (passed stop operation n s).length = n)) ∨
    ∃ s' e, P (past ++ passed stop operation n s) s' ∧ stop s' = false ∧
      (passed stop operation n s).length < n ∧ (operation s').result = .error e ∧
      repeatUntil stop operation n s = fail (operation s').state e := by
  induction n generalizing past s with
  | zero => exact .inl ⟨s, rfl, by simpa [passed] using hstart, .inr rfl⟩
  | succ n ih =>
    cases hstop : stop s with
    | true =>
      rw [passed_of_stop (n + 1) hstop, repeatUntil_of_stop (n + 1) hstop, List.append_nil]
      exact .inl ⟨s, rfl, hstart, .inl hstop⟩
    | false =>
      rw [passed_succ hstop, repeatUntil_succ hstop]
      cases hresult : (operation s).result with
      | error e =>
        refine .inr ⟨s, e, ?_, hstop, Nat.succ_pos n, hresult, rfl⟩
        rw [List.append_nil]
        exact hstart
      | ok a =>
        have hends := ih (hstep past s a hstart hstop hresult)
        simp only [List.append_assoc, List.singleton_append] at hends
        refine hends.imp ?_ ?_
        · rintro ⟨s', hrun, hpast, hlast⟩
          exact ⟨s', hrun, hpast, hlast.imp_right (congrArg (· + 1))⟩
        · rintro ⟨s', e, hpast, hstop', hlength, hfails, hrun⟩
          exact ⟨s', e, hpast, hstop', Nat.succ_lt_succ hlength, hfails, hrun⟩

end History

/-! ## Two loops -/

/-- Two loops stop together, and their operations keep the states related and succeed or fail
together. -/
structure Lockstep {τ δ β : Type} (R : σ → τ → Prop) (translate : ε → δ) (stop : σ → Bool)
    (operation : σ → Outcome σ ε α) (stop' : τ → Bool) (operation' : τ → Outcome τ δ β) : Prop where
  stop_eq {s : σ} {t : τ} (h : R s t) : stop' t = stop s
  state {s : σ} {t : τ} (h : R s t) (hs : stop s = false) :
    R (operation s).state (operation' t).state
  result {s : σ} {t : τ} (h : R s t) (hs : stop s = false) :
    (operation' t).result.map (fun _ => ()) =
      ((operation s).result.map fun _ => ()).mapError translate

namespace Lockstep

variable {τ δ β : Type} {stop' : τ → Bool} {operation' : τ → Outcome τ δ β} {R : σ → τ → Prop}
  {translate : ε → δ} (hloops : Lockstep R translate stop operation stop' operation')

include hloops

/-- Loops in lockstep end in related states and succeed or fail together. -/
theorem repeatUntil (n : Nat) {s : σ} {t : τ} (h : R s t) :
    R (Outcome.repeatUntil stop operation n s).state (Outcome.repeatUntil stop' operation' n t).state ∧
      (Outcome.repeatUntil stop' operation' n t).result =
        (Outcome.repeatUntil stop operation n s).result.mapError translate := by
  induction n generalizing s t with
  | zero => exact ⟨h, rfl⟩
  | succ n ih =>
    cases hs : stop s with
    | true =>
      rw [repeatUntil_of_stop (n + 1) hs, repeatUntil_of_stop (n + 1) ((hloops.stop_eq h).trans hs)]
      exact ⟨h, rfl⟩
    | false =>
      have hstate := hloops.state h hs
      have hresult := hloops.result h hs
      rw [repeatUntil_succ hs, repeatUntil_succ ((hloops.stop_eq h).trans hs)]
      cases hleft : (operation s).result <;> cases hright : (operation' t).result <;>
        rw [hleft, hright] at hresult <;> cases hresult
      · exact ⟨hstate, rfl⟩
      · exact ih hstate

/-- Loops in lockstep go through related states. -/
theorem visited (n : Nat) {s : σ} {t : τ} (h : R s t) :
    List.Forall₂ R (Outcome.visited stop operation n s) (Outcome.visited stop' operation' n t) := by
  induction n generalizing s t with
  | zero => exact .nil
  | succ n ih =>
    cases hs : stop s with
    | true =>
      rw [visited_of_stop (n + 1) hs, visited_of_stop (n + 1) ((hloops.stop_eq h).trans hs)]
      exact .nil
    | false =>
      have hstate := hloops.state h hs
      have hresult := hloops.result h hs
      rw [visited_succ hs, visited_succ ((hloops.stop_eq h).trans hs)]
      cases hleft : (operation s).result <;> cases hright : (operation' t).result <;>
        rw [hleft, hright] at hresult <;> cases hresult
      · exact .cons h .nil
      · exact .cons h (ih hstate)

end Lockstep

end Outcome

end Chip8
