import Chip8.Proofs.Outcome

/-!
# Loops that count

A run with a limit looks before every step whether it has to stop and whether the limit is reached.
`Outcome.repeatUntil` is given the number of steps in advance instead.  This is the same if every step
that succeeds is counted or is the last one.

* `Outcome.Ends`: a loop that nothing bounds comes to its end after a number of steps.  It does so in
  one way only (`Ends.unique`), and if it goes on for ever it does not at all.  Where it ends
  `repeatUntil` has the same outcome (`Ends.repeatUntil_eq`), and it can be cut anywhere before
  (`exists_ends_iff`).  Loops in lockstep end together (`Lockstep.ends`).
* `Outcome.Counted`: every step that succeeds is counted, or the loop has to stop after it.
* `Counted.ends` and `Counted.of_ends`: a loop with a limit comes to its end, with the outcome of
  `repeatUntil`, after no more steps than there are left to count.
* `Counted.andThen_repeatUntil`: a loop that is taken up again with another limit does the same as one
  with the greater of the limits.
-/

namespace Chip8

namespace Outcome

variable {σ ε α : Type} {stop : σ → Bool} {operation : σ → Outcome σ ε α}

/-! ## Loops that nothing bounds -/

/-- A loop that repeats an operation until it has to stop or the operation fails comes to its end after
`k` steps, with an outcome.  A step that fails is one of them. -/
inductive Ends (stop : σ → Bool) (operation : σ → Outcome σ ε α) :
    Nat → σ → Outcome σ ε Unit → Prop
  /-- The loop has to stop. -/
  | stops {s : σ} (hstop : stop s = true) : Ends stop operation 0 s (done s ())
  /-- A step succeeds, and the loop goes on from there. -/
  | succeeds {k : Nat} {s s' : σ} {a : α} {o : Outcome σ ε Unit} (hstop : stop s = false)
      (hstep : operation s = done s' a) (h : Ends stop operation k s' o) :
      Ends stop operation (k + 1) s o
  /-- A step fails. -/
  | fails {s s' : σ} {e : ε} (hstop : stop s = false) (hstep : operation s = fail s' e) :
      Ends stop operation 1 s (fail s' e)

theorem Ends.unique {k k' : Nat} {s : σ} {o o' : Outcome σ ε Unit} (h : Ends stop operation k s o)
    (h' : Ends stop operation k' s o') : k' = k ∧ o' = o := by
  induction h generalizing k' with
  | stops hstop =>
    cases h' with
    | stops => exact ⟨rfl, rfl⟩
    | succeeds hstop' => cases hstop.symm.trans hstop'
    | fails hstop' => cases hstop.symm.trans hstop'
  | succeeds hstop hstep h ih =>
    cases h' with
    | stops hstop' => cases hstop.symm.trans hstop'
    | succeeds hstop' hstep' hrest =>
      cases hstep.symm.trans hstep'
      exact (ih hrest).imp_left (congrArg (· + 1))
    | fails hstop' hstep' => cases hstep.symm.trans hstep'
  | fails hstop hstep =>
    cases h' with
    | stops hstop' => cases hstop.symm.trans hstop'
    | succeeds hstop' hstep' => cases hstep.symm.trans hstep'
    | fails hstop' hstep' =>
      cases hstep.symm.trans hstep'
      exact ⟨rfl, rfl⟩

/-- Where a loop that nothing bounds comes to its end, a loop with a number of steps does so too. -/
theorem Ends.repeatUntil_eq {k n : Nat} {s : σ} {o : Outcome σ ε Unit}
    (h : Ends stop operation k s o) (hk : k ≤ n) : repeatUntil stop operation n s = o := by
  induction h generalizing n with
  | stops hstop => exact repeatUntil_of_stop n hstop
  | succeeds hstop hstep h ih =>
    obtain ⟨n, rfl⟩ := Nat.exists_eq_add_one.mpr (Nat.zero_lt_of_lt hk)
    rw [repeatUntil_succ hstop, hstep]
    exact ih (Nat.le_of_succ_le_succ hk)
  | fails hstop hstep =>
    obtain ⟨n, rfl⟩ := Nat.exists_eq_add_one.mpr hk
    rw [repeatUntil_succ hstop, hstep]
    rfl

/-- A loop comes to its end as it does from where its first steps have led, or with the first of them that
fails. -/
theorem exists_ends_iff (n : Nat) {s : σ} {o : Outcome σ ε Unit} :
    (∃ k, Ends stop operation k s o) ↔
      (∃ s', repeatUntil stop operation n s = done s' () ∧ ∃ k, Ends stop operation k s' o) ∨
        ∃ s' e, repeatUntil stop operation n s = fail s' e ∧ o = fail s' e := by
  induction n generalizing s with
  | zero => simp [repeatUntil, done, fail]
  | succ n ih =>
    cases hstop : stop s with
    | true => simp [repeatUntil_of_stop (n + 1) hstop, done, fail]
    | false =>
      rw [repeatUntil_succ hstop]
      cases hresult : (operation s).result with
      | error e =>
        have hstep : operation s = fail (operation s).state e := eq_fail hresult
        constructor
        · rintro ⟨k, hends⟩
          exact .inr ⟨_, e, rfl, ((Ends.fails hstop hstep).unique hends).2⟩
        · rintro (⟨_, hrun, -⟩ | ⟨_, _, hrun, rfl⟩)
          · cases hrun
          · cases hrun
            exact ⟨1, .fails hstop hstep⟩
      | ok a =>
        have hstep : operation s = done (operation s).state a := eq_done hresult
        refine Iff.trans ?_ ih
        constructor
        · rintro ⟨k, hends⟩
          cases hends with
          | stops hstop' => cases hstop.symm.trans hstop'
          | succeeds _ hstep' hrest =>
            cases hstep.symm.trans hstep'
            exact ⟨_, hrest⟩
          | fails _ hstep' => cases hstep.symm.trans hstep'
        · rintro ⟨k, hends⟩
          exact ⟨k + 1, .succeeds hstop hstep hends⟩

/-- Loops in lockstep come to their ends together. -/
theorem Lockstep.ends {τ δ β : Type} {stop' : τ → Bool} {operation' : τ → Outcome τ δ β}
    {R : σ → τ → Prop} {translate : ε → δ}
    (hloops : Lockstep R translate stop operation stop' operation') {k : Nat} {s : σ} {t : τ}
    (h : R s t) {o : Outcome σ ε Unit} (hends : Ends stop operation k s o) :
    ∃ o', Ends stop' operation' k t o' ∧ R o.state o'.state ∧
      o'.result = o.result.mapError translate := by
  induction hends generalizing t with
  | stops hstop => exact ⟨done t (), .stops ((hloops.stop_eq h).trans hstop), h, rfl⟩
  | @succeeds k s s' a o hstop hstep hrest ih =>
    have hstate := hloops.state h hstop
    have hresult := hloops.result h hstop
    rw [hstep] at hstate hresult
    cases hright : (operation' t).result with
    | error e =>
      rw [hright] at hresult
      cases hresult
    | ok b =>
      obtain ⟨o', hends', ho'⟩ := ih hstate
      have hstep' : operation' t = done (operation' t).state b := eq_done hright
      exact ⟨o', .succeeds ((hloops.stop_eq h).trans hstop) hstep' hends', ho'⟩
  | @fails s s' e hstop hstep =>
    have hstate := hloops.state h hstop
    have hresult := hloops.result h hstop
    rw [hstep] at hstate hresult
    cases hright : (operation' t).result with
    | ok b =>
      rw [hright] at hresult
      cases hresult
    | error e' =>
      rw [hright] at hresult
      cases hresult
      have hstep' : operation' t = fail (operation' t).state (translate e) := eq_fail hright
      exact ⟨_, .fails ((hloops.stop_eq h).trans hstop) hstep', hstate, rfl⟩

/-! ## One loop after the other -/

/-- Goes on from the state that an operation leaves, if it succeeds. -/
def andThen (o : Outcome σ ε Unit) (next : σ → Outcome σ ε Unit) : Outcome σ ε Unit :=
  match o with
  | ⟨s, .ok ()⟩ => next s
  | ⟨s, .error e⟩ => fail s e

theorem andThen_of_ok {o : Outcome σ ε Unit} (h : o.result = .ok ())
    (next : σ → Outcome σ ε Unit) : o.andThen next = next o.state := by
  obtain ⟨s, result⟩ := o
  cases h
  rfl

theorem repeatUntil_add (n k : Nat) (s : σ) :
    repeatUntil stop operation (n + k) s =
      (repeatUntil stop operation n s).andThen (repeatUntil stop operation k) := by
  induction n generalizing s with
  | zero => rw [Nat.zero_add, repeatUntil, done, andThen]
  | succ n ih =>
    cases hstop : stop s with
    | true =>
      rw [repeatUntil_of_stop _ hstop, repeatUntil_of_stop _ hstop, done, andThen,
        repeatUntil_of_stop k hstop, done]
    | false =>
      rw [Nat.succ_add, repeatUntil_succ hstop, repeatUntil_succ hstop]
      cases (operation s).result with
      | ok a => exact ih (operation s).state
      | error e => rfl

/-! ## Loops that count -/

/-- What a step from `s` with the outcome `o` counts.  One that succeeds is counted, or the loop has to
stop after it.  One that fails may have been counted before. -/
def StepCounts (stop : σ → Bool) (count : σ → Nat) (s : σ) (o : Outcome σ ε α) : Prop :=
  match o.result with
  | .ok _ => count o.state = count s + 1 ∨ count o.state = count s ∧ stop o.state = true
  | .error _ => count s ≤ count o.state ∧ count o.state ≤ count s + 1

/-- Every step of a loop that succeeds is counted, or the loop has to stop after it. -/
def Counted (stop : σ → Bool) (operation : σ → Outcome σ ε α) (count : σ → Nat) : Prop :=
  ∀ s, stop s = false → StepCounts stop count s (operation s)

namespace Counted

variable {count : σ → Nat} (h : Counted stop operation count) (limit : Nat)

include h

/-- A loop with a limit comes to its end, with the outcome of a loop whose number of steps is what is
left to count. -/
theorem ends (s : σ) :
    ∃ k, Ends (fun s => stop s || decide (limit ≤ count s)) operation k s
      (repeatUntil stop operation (limit - count s) s) := by
  generalize hleft : limit - count s = left
  induction left generalizing s with
  | zero => exact ⟨0, .stops (by simp; omega)⟩
  | succ left ih =>
    cases hstop : stop s with
    | true =>
      rw [repeatUntil_of_stop _ hstop]
      exact ⟨0, .stops (by simp [hstop])⟩
    | false =>
      have hgoes : (stop s || decide (limit ≤ count s)) = false := by
        simp [hstop]
        omega
      rw [repeatUntil_succ hstop]
      have hcounts := h s hstop
      rw [StepCounts] at hcounts
      cases hresult : (operation s).result with
      | error e =>
        have hstep : operation s = fail (operation s).state e := eq_fail hresult
        exact ⟨1, .fails hgoes hstep⟩
      | ok a =>
        rw [hresult] at hcounts
        have hstep : operation s = done (operation s).state a := eq_done hresult
        obtain ⟨k, hends⟩ : ∃ k, Ends (fun s => stop s || decide (limit ≤ count s)) operation k
            (operation s).state (repeatUntil stop operation left (operation s).state) := by
          rcases hcounts with hcount | ⟨-, hlast⟩
          · exact ih (operation s).state (by omega)
          · rw [repeatUntil_of_stop left hlast]
            exact ⟨0, .stops (by simp [hlast])⟩
        exact ⟨k + 1, .succeeds hgoes hstep hends⟩

/-- A loop with a limit makes no more steps than there are left to count.  It counts up to the limit at
most, and if it ends without an error it has to stop or has counted up to the limit. -/
theorem of_ends {k : Nat} {s : σ} {o : Outcome σ ε Unit}
    (hends : Ends (fun s => stop s || decide (limit ≤ count s)) operation k s o) :
    k ≤ limit - count s ∧ count s ≤ count o.state ∧ count o.state ≤ max limit (count s) ∧
      (o.result = .ok () → stop o.state = true ∨ limit ≤ count o.state) := by
  induction hends with
  | @stops s hstop =>
    obtain hstop | hlimit : stop s = true ∨ limit ≤ count s := by simpa using hstop
    · exact ⟨Nat.zero_le _, Nat.le_refl _, Nat.le_max_right .., fun _ => .inl hstop⟩
    · exact ⟨Nat.zero_le _, Nat.le_refl _, Nat.le_max_right .., fun _ => .inr hlimit⟩
  | @succeeds k s s' a o hstop hstep hrest ih =>
    obtain ⟨hgoes, hroom⟩ : stop s = false ∧ count s < limit := by simpa using hstop
    obtain ⟨hk, hle, hmax, hlast⟩ := ih
    have hcounts : count s' = count s + 1 ∨ count s' = count s ∧ stop s' = true := by
      simpa only [StepCounts, hstep, done] using h s hgoes
    rcases hcounts with hcount | ⟨hcount, hstop'⟩
    · exact ⟨by omega, by omega, by omega, hlast⟩
    · -- A step that is not counted is the last, so the loop ends right behind it.
      obtain ⟨rfl, rfl⟩ := (Ends.stops (by simp [hstop'])).unique hrest
      exact ⟨by omega, by omega, by omega, hlast⟩
  | @fails s s' e hstop hstep =>
    obtain ⟨hgoes, hroom⟩ : stop s = false ∧ count s < limit := by simpa using hstop
    have hcounts : count s ≤ count s' ∧ count s' ≤ count s + 1 := by
      simpa only [StepCounts, hstep, fail] using h s hgoes
    refine ⟨by omega, hcounts.1, by dsimp only [fail]; omega, fun hresult => ?_⟩
    cases hresult

/-- How a loop with a limit comes to its end, in one way only. -/
theorem exists_ends (s : σ) :
    ∃ steps ≤ limit - count s,
      let final := repeatUntil stop operation (limit - count s) s
      (∀ k o, Ends (fun s => stop s || decide (limit ≤ count s)) operation k s o ↔
        k = steps ∧ o = final) ∧
      (final.result = .ok () → stop final.state = true ∨ limit ≤ count final.state) ∧
      count final.state ≤ max limit (count s) := by
  obtain ⟨steps, hends⟩ := h.ends limit s
  obtain ⟨hsteps, -, hmax, hlast⟩ := h.of_ends limit hends
  refine ⟨steps, hsteps, fun k o => ⟨hends.unique, ?_⟩, hlast, hmax⟩
  rintro ⟨rfl, rfl⟩
  exact hends

/-- A loop that is taken up again with another limit, if it has not failed, does the same as one with
the greater of the limits. -/
theorem andThen_repeatUntil (a b : Nat) (s : σ) :
    ((repeatUntil stop operation (a - count s) s).andThen fun s' =>
        repeatUntil stop operation (b - count s') s') =
      repeatUntil stop operation (max a b - count s) s := by
  obtain ⟨k, hends⟩ := h.ends a s
  obtain ⟨-, hle, hmax, hlast⟩ := h.of_ends a hends
  have hsplit : max a b - count s = (a - count s) + (max a b - count s - (a - count s)) := by omega
  rw [hsplit, repeatUntil_add]
  generalize repeatUntil stop operation (a - count s) s = first at hle hmax hlast
  obtain ⟨s', _ | _⟩ := first
  · rfl
  · rw [andThen_of_ok rfl, andThen_of_ok rfl]
    dsimp only at hle hmax hlast ⊢
    rcases hlast rfl with hstop | hcount
    · rw [repeatUntil_of_stop _ hstop, repeatUntil_of_stop _ hstop]
    · congr 1
      omega

end Counted

end Outcome

end Chip8
