import Chip8.Proofs.Emulator.LifeCycle
import Chip8.Proofs.Outcome.Counting
import Chip8.Proofs.Terminal.Unattended

/-!
# Runs up to a limit of frames

A frontend looks before every turn whether there is anything left to run and whether the limit of frames
is reached.  The emulator counts the frames itself, and it does not count one that fails.  Such a frame
ends the run, and so does the escape key, which keeps the frame of its turn from being run.

* `Emulator.counted_update` and `Terminal.counted_turn`: a turn of a frontend completes a frame, or
  there is nothing left to run after it.
* `Emulator.isFinished`: the two tests of a frontend, or the one that it makes without a limit.
* `Headless.Ends`: what the loop with these tests leaves, which may go on for ever without a limit.
  `Headless.run` is this loop (`ends_some_iff`, `run_none_of_ends`).
* `Headless.run_andThen_run`: a run can be cut at a limit and taken up again.
-/

namespace Chip8

namespace Emulator

/-- Whether a run is at its end: there is nothing left to run, or the limit of frames has been reached if
there is one. -/
def isFinished (limit : Option Nat) (e : Emulator) : Bool :=
  e.isOver || limit.any fun limit => decide (limit ≤ e.frames)

/-- A frame is counted, or there is nothing left to run after it.  One that goes out of bounds is not
counted, and one whose picture does so is. -/
theorem frames_advance (e : Emulator) :
    Outcome.StepCounts isOver frames e e.advance := by
  cases hover : e.isOver with
  | true =>
    rw [advance, if_pos hover]
    exact .inr ⟨rfl, hover⟩
  | false =>
    rw [advance, if_neg (by simp [hover]), runFrame]
    obtain ⟨m, (fault | _) | _⟩ := e.machine.cycles e.settings.debug e.cyclesPerFrame
    · exact .inr ⟨rfl, rfl⟩
    · exact ⟨Nat.le_refl _, Nat.le_succ _⟩
    · exact .inl rfl

theorem frames_update (state : Emulator × FrameBuffer) :
    Outcome.StepCounts (·.1.isOver) (·.1.frames) state (update state) := by
  obtain ⟨e, buffer⟩ := state
  have hadvance := e.frames_advance
  simp only [update]
  generalize e.advance = outcome at hadvance ⊢
  obtain ⟨e', failure | _ | _⟩ := outcome
  · exact hadvance
  · exact hadvance
  · simp only [Outcome.StepCounts] at hadvance
    show Outcome.StepCounts _ _ (e, buffer)
      ((e'.machine.screen.render buffer).within fun buffer => (e', buffer))
    obtain ⟨shown, _ | _⟩ := e'.machine.screen.render buffer
    · show e.frames ≤ e'.frames ∧ e'.frames ≤ e.frames + 1
      omega
    · exact hadvance

theorem counted_update : Outcome.Counted (·.1.isOver) update (·.1.frames) :=
  fun state _ => frames_update state

/-- Letting go of keys counts no frame and does not bring a run back. -/
theorem foldl_release_keeps (released : List Key) (e : Emulator) :
    let e' := released.foldl (fun e key => e.handleKey key false) e
    e'.frames = e.frames ∧ (e.isOver = true → e'.isOver = true) := by
  induction released generalizing e with
  | nil => exact ⟨rfl, id⟩
  | cons key released ih =>
    obtain ⟨hframes, hover⟩ := ih (e.handleKey key false)
    exact ⟨hframes.trans (e.fault_handleKey key false).2.1,
      fun h => hover (isOver_handleKey h key false)⟩

end Emulator

namespace Terminal

theorem frames_readReports (t : Terminal) (reports : List KeyReport) :
    (t.readReports reports).emulator.frames = t.emulator.frames := by
  suffices h : ∀ t : Terminal, (reports.foldl report t).emulator.frames = t.emulator.frames from
    h { t with polls := t.polls.tail }
  intro t
  induction reports generalizing t with
  | nil => rfl
  | cons r reports ih =>
    exact (ih (t.report r)).trans (t.emulator.fault_handleKey r.key r.isPress).2.1

/-- A turn completes a frame, or there is nothing left to run after it.  One that fails counts none. -/
theorem frames_turn (t : Terminal) :
    Outcome.StepCounts isOver (·.emulator.frames) t t.turn := by
  rw [turn]
  cases t.nextPoll with
  | error message => exact ⟨Nat.le_refl _, Nat.le_succ _⟩
  | ok reports =>
    have hread := t.frames_readReports reports
    dsimp only
    generalize t.readReports reports = t' at hread ⊢
    have hframes := Emulator.frames_update (t'.emulator, t'.picture)
    generalize Emulator.update (t'.emulator, t'.picture) = outcome at hframes ⊢
    obtain ⟨⟨e, picture⟩, failure | _⟩ := outcome
    · simp only [Outcome.StepCounts, hread] at hframes
      exact hframes
    · obtain ⟨hreleased, hover⟩ := Emulator.foldl_release_keeps t'.held.tick.2 e
      simp only [Outcome.StepCounts, Outcome.done, isOver, ← hread,
        (redraw_keeps { t' with emulator := e, picture }.releaseKeys).2.2.2.1]
      exact hframes.imp hreleased.trans (And.imp hreleased.trans hover)

theorem counted_turn : Outcome.Counted isOver turn (·.emulator.frames) :=
  fun t _ => t.frames_turn

end Terminal

/-! ## The results -/

namespace Emulator

/-- The first frame of a program that returns without a call ends the run. -/
theorem exists_failing :
    ∃ m : Machine, m.Reachable ∧
      let e : Emulator := { machine := m, settings := {} }
      e.Fits .blank ∧ e.isOver = false ∧ ∃ e' shown, update (e, .blank) = .done (e', shown) () ∧
        e'.fault = some (.stackUnderflow "pop") ∧ e'.frames = 0 ∧ e'.isOver = true := by
  obtain ⟨ready, hreached, hrunning, hstack, hscreen, hopcode⟩ :=
    Machine.exists_loaded #[0x00, 0xEE] 0x00 0xEE (by decide) rfl rfl (by decide)
  have hstep : ready.step =
      .refuse (ready.seeing (.ofBytes 0x00 0xEE)) (.stackUnderflow "pop") := by
    refine hreached.sound.step_of_refuse hrunning hopcode
      (Opcode.decode_of_nibbles_eq (i := .ret) rfl) ?_
    simp only [Instruction.execute, CallStack.pop, hstack]
  let e : Emulator := { machine := ready, settings := {} }
  have hover : e.isOver = false := by simp [e, isOver, Machine.hasHalted, hrunning]
  have hfits : e.Fits .blank :=
    .of_sameShape hreached.sound (hscreen ▸ .refl Screen.standard) FrameBuffer.size_blank
  obtain ⟨shown, hupdate, -⟩ := hfits.update
  rw [advance_eq hreached.sound hover, framed_of_step_refuse rfl hover hstep] at hupdate
  exact ⟨ready, hreached, hfits, hover, _, _, hupdate, rfl, rfl, rfl⟩

/-- A run with a limit of frames comes to its end, whatever the program does, whatever the polls answer
and however many frames have been counted before.  It makes no more turns than there are frames left up
to the limit, a turn whose poll fails among them, and it ends in one way only.  If it ends without an
error there is nothing left to run or the limit has been reached.  No frame is counted beyond the limit,
and one that ends with a fault is not counted at all, but there is nothing left to run after it. -/
theorem frame_limited_runs_end (limit : Nat) :
    (∀ e : Emulator, ∃ turns ≤ limit - e.frames,
      let final := Headless.loop (some limit) (e, .blank)
      Headless.run (some limit) e = final.within Prod.fst ∧
      (∀ k o, Outcome.Ends (·.1.isFinished (some limit)) update k (e, .blank) o ↔
        k = turns ∧ o = final) ∧
      (final.result = .ok () → final.state.1.isOver = true ∨ limit ≤ final.state.1.frames) ∧
      final.state.1.frames ≤ max limit e.frames ∧
      (e.machine.Sound → 3 * e.machine.screen.pixels.size ≤ 6144 → final.result = .ok ())) ∧
    (∀ t : Terminal, ∃ turns ≤ limit - t.emulator.frames,
      let final := t.run (some limit)
      (∀ k o, Outcome.Ends (·.emulator.isFinished (some limit)) Terminal.turn k t o ↔
        k = turns ∧ o = final) ∧
      (final.result = .ok () → final.state.isOver = true ∨ limit ≤ final.state.emulator.frames) ∧
      final.state.emulator.frames ≤ max limit t.emulator.frames) ∧
    ∀ (e : Emulator) (fault : Fault) (buffer : FrameBuffer), e.isOver = false →
      e.runFrame.result = .error (.fault fault) →
        (update (e, buffer)).state.1.frames = e.frames ∧
          (update (e, buffer)).state.1.isOver = true := by
  refine ⟨fun e => ?_, Terminal.counted_turn.exists_ends limit,
    fun e fault buffer hover hresult => ?_⟩
  · obtain ⟨turns, hturns, hends, hlast, hmax⟩ := counted_update.exists_ends limit (e, .blank)
    exact ⟨turns, hturns, rfl, hends, hlast, hmax, fun hsound hroom =>
      Headless.result_run ⟨hsound, FrameBuffer.size_blank ▸ hroom⟩ (some limit)⟩
  · rw [fst_update, advance, if_neg (by simp [hover])]
    simp only [runFrame] at hresult ⊢
    generalize e.machine.cycles e.settings.debug e.cyclesPerFrame = outcome at hresult ⊢
    obtain ⟨m, failure | _⟩ := outcome
    · cases hresult
      exact ⟨rfl, rfl⟩
    · cases hresult

/-- A program that returns without a call, in a run of up to five frames.  It takes one turn, in which no
frame is counted. -/
theorem frame_limited_runs_end_return :
    ∃ m : Machine, m.Reachable ∧
      let e : Emulator := { machine := m, settings := {} }
      let final := Headless.loop (some 5) (e, .blank)
      (∀ k o, Outcome.Ends (·.1.isFinished (some 5)) update k (e, .blank) o ↔
          k = 1 ∧ o = final) ∧
        final.result = .ok () ∧ final.state.1.frames = 0 ∧ final.state.1.isOver = true := by
  obtain ⟨m, hreached, hfits, hover, e', shown, hupdate, -, hframes, hover'⟩ := exists_failing
  refine ⟨m, hreached, ?_⟩
  intro e final
  obtain ⟨turns, -, -, hends, -, -, hresult⟩ := (frame_limited_runs_end 5).1 e
  have honce : Outcome.Ends (·.1.isFinished (some 5)) update 1 (e, .blank) (.done (e', shown) ()) :=
    .succeeds (by rw [isFinished, hover]; rfl) hupdate (.stops (by rw [isFinished, hover']; rfl))
  obtain ⟨rfl, hfinal⟩ := (hends 1 _).mp honce
  have hstate : final.state.1 = e' := (congrArg (·.state.1) hfinal).symm
  exact ⟨hends, hresult hreached.sound (FrameBuffer.size_blank ▸ hfits.room), hstate ▸ hframes,
    hstate ▸ hover'⟩

end Emulator

namespace Headless

/-- The loop of a run without a display comes to its end with what it leaves of the emulator.  Without a
limit it may go on for ever. -/
def Ends (limit : Option Nat) (e : Emulator) (o : Outcome Emulator Failure Unit) : Prop :=
  ∃ k final, Outcome.Ends (·.1.isFinished limit) Emulator.update k (e, .blank) final ∧
    final.within Prod.fst = o

/-- With a limit the loop comes to its end, and what it leaves is what `run` leaves. -/
theorem ends_some_iff {limit : Nat} {e : Emulator} {o : Outcome Emulator Failure Unit} :
    Ends (some limit) e o ↔ o = run (some limit) e := by
  obtain ⟨turns, -, hends, -, -⟩ := Emulator.counted_update.exists_ends limit (e, .blank)
  constructor
  · rintro ⟨k, final, hfinal, rfl⟩
    rw [((hends k final).mp hfinal).2]
    rfl
  · rintro rfl
    exact ⟨turns, _, (hends turns _).mpr ⟨rfl, rfl⟩, rfl⟩

/-- Without a limit `run` leaves what the loop leaves that does not test the count of frames, if this
comes to its end while the frames can be counted. -/
theorem run_none_of_ends {k : Nat} {e : Emulator} {final : Outcome (Emulator × FrameBuffer) Failure Unit}
    (h : Outcome.Ends (·.1.isFinished none) Emulator.update k (e, .blank) final)
    (hk : k ≤ framesLeft none e) : run none e = final.within Prod.fst := by
  simp only [Emulator.isFinished, Option.any_none, Bool.or_false] at h
  rw [run, loop, h.repeatUntil_eq hk]

/-- The loop comes to the same end with every buffer of the size of the one that it begins with. -/
theorem ends_iff {limit : Option Nat} {state : Emulator × FrameBuffer}
    (hsize : state.2.size = FrameBuffer.blank.size) {o : Outcome Emulator Failure Unit} :
    Ends limit state.1 o ↔
      ∃ k final, Outcome.Ends (·.1.isFinished limit) Emulator.update k state final ∧
        final.within Prod.fst = o := by
  have hloops := Emulator.lockstep_alike (Emulator.isFinished limit)
  have hends {s t : Emulator × FrameBuffer} (halike : Emulator.Alike s t) :
      (∃ k final, Outcome.Ends (·.1.isFinished limit) Emulator.update k s final ∧
        final.within Prod.fst = o) →
      ∃ k final, Outcome.Ends (·.1.isFinished limit) Emulator.update k t final ∧
        final.within Prod.fst = o := by
    rintro ⟨k, final, hfinal, rfl⟩
    obtain ⟨final', hfinal', hstate, hresult⟩ := hloops.ends halike hfinal
    exact ⟨k, final', hfinal', hstate.within_eq hresult⟩
  exact ⟨hends ⟨rfl, hsize⟩, hends ⟨rfl, hsize.symm⟩⟩

/-- A run without a display can be cut at a limit of frames and taken up again: if the first part does
not go out of bounds, the second one ends as a single run up to the greater of the limits does, with the
same emulator.  On a sound machine whose picture has room the first part never goes out of bounds.  The
second part may also have no limit: then it comes to an end if and only if a single run without a limit
does, and it leaves the same. -/
theorem run_andThen_run (a b : Nat) (e : Emulator) :
    (run (some a) e).andThen (run (some b)) = run (some (max a b)) e ∧
      (e.machine.Sound → 3 * e.machine.screen.pixels.size ≤ 6144 →
        run (some b) (run (some a) e).state = run (some (max a b)) e) ∧
      ∀ o, Ends none e o ↔
        (∃ e', run (some a) e = .done e' () ∧ Ends none e' o) ∨
          ∃ e' failure, run (some a) e = .fail e' failure ∧ o = .fail e' failure := by
  have hsize := size_loop (some a) (e, .blank)
  have hcut : (run (some a) e).andThen (run (some b)) = run (some (max a b)) e := by
    have hloops : (loop (some a) (e, .blank)).andThen (loop (some b)) =
        loop (some (max a b)) (e, .blank) :=
      Emulator.counted_update.andThen_repeatUntil a b (e, .blank)
    rw [run, run, ← hloops]
    generalize loop (some a) (e, .blank) = first at hsize ⊢
    obtain ⟨state, _ | _⟩ := first
    · rfl
    · exact run_eq_loop hsize (some b)
  refine ⟨hcut, fun hsound hroom => ?_, fun o => ?_⟩
  · rw [← hcut, Outcome.andThen_of_ok]
    exact result_run ⟨hsound, FrameBuffer.size_blank ▸ hroom⟩ (some a)
  · have hends (final : Outcome (Emulator × FrameBuffer) Failure Unit) :
        (∃ k, Outcome.Ends (·.1.isFinished none) Emulator.update k (e, .blank) final) ↔
          (∃ s, loop (some a) (e, .blank) = .done s () ∧
            ∃ k, Outcome.Ends (·.1.isFinished none) Emulator.update k s final) ∨
          ∃ s failure, loop (some a) (e, .blank) = .fail s failure ∧ final = .fail s failure := by
      simp only [Emulator.isFinished, Option.any_none, Bool.or_false]
      exact Outcome.exists_ends_iff (framesLeft (some a) e)
    rw [run]
    generalize loop (some a) (e, .blank) = first at hsize hends ⊢
    constructor
    · rintro ⟨k, final, hfinal, rfl⟩
      obtain ⟨s, rfl, k', hfinal'⟩ | ⟨s, failure, rfl, rfl⟩ := (hends final).mp ⟨k, hfinal⟩
      · exact .inl ⟨s.1, rfl, (ends_iff hsize).mpr ⟨k', final, hfinal', rfl⟩⟩
      · exact .inr ⟨s.1, failure, rfl, rfl⟩
    · obtain ⟨s, failure | _⟩ := first
      · rintro (⟨_, hrun, -⟩ | ⟨_, _, hrun, rfl⟩)
        · cases hrun
        · obtain ⟨k, hfinal⟩ := (hends _).mpr (.inr ⟨s, failure, rfl, rfl⟩)
          exact ⟨k, _, hfinal, hrun⟩
      · rintro (⟨_, hrun, hrest⟩ | ⟨_, _, hrun, -⟩)
        · cases hrun
          obtain ⟨k, final, hfinal, ho⟩ := (ends_iff hsize).mp hrest
          obtain ⟨k', hfinal'⟩ := (hends final).mpr (.inl ⟨s, rfl, k, hfinal⟩)
          exact ⟨k', final, hfinal', ho⟩
        · cases hrun

/-- A program that returns without a call, in the first part of a run that is cut after its first
frame. -/
theorem run_andThen_run_return :
    ∃ m : Machine, m.Reachable ∧
      let e : Emulator := { machine := m, settings := {} }
      (run (some 1) e).state.fault = some (.stackUnderflow "pop") ∧
        run (some 3) (run (some 1) e).state = run (some 3) e := by
  obtain ⟨m, hreached, hfits, hover, e', shown, hupdate, hfault, -⟩ := Emulator.exists_failing
  refine ⟨m, hreached, ?_⟩
  intro e
  have hfirst : loop (some 1) (e, .blank) = .done (e', shown) () := by
    show Outcome.repeatUntil (·.1.isOver) Emulator.update 1 (e, .blank) = _
    rw [Outcome.repeatUntil_succ (by exact hover), hupdate]
    rfl
  refine ⟨?_, (run_andThen_run 1 3 e).2.1 hreached.sound (FrameBuffer.size_blank ▸ hfits.room)⟩
  rw [run, hfirst]
  exact hfault

end Headless

end Chip8
