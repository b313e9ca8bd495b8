import Mathlib.Data.List.Nodup
import Chip8.Proofs.Emulator.Pictures
import Chip8.Proofs.Machine.Loading
import Chip8.Proofs.Terminal.HeldKeys
import Chip8.Terminal

/-!
# How long a key is down

Which keys of the keypad are down in a frame of a run in a terminal follows from what the polls have
reported so far: a key is down if the last report on it says that it was pressed and is not older than
the frames for which a key is held.

* `Emulator.isPressed_handleKey` and `Emulator.keypad_advance`: events move keys of the keypad, and
  frames do not.
* `HeldKeys.Tracks`: the held keys are those that the reports so far tell, with the frames that they
  have left.
* `Terminal.Holding`: what the turns of a run keep (`Holding.turn`).
-/

namespace Chip8

namespace Emulator

/-! ## The keypad of an emulator -/

/-- An event moves the key of the keypad that its key stands for, and no other. -/
theorem isPressed_handleKey (e : Emulator) (key : Key) (down : Bool) (slot : UInt8) :
    (e.handleKey key down).machine.keypad.isPressed slot =
      if key.keypad? = some slot then down else e.machine.keypad.isPressed slot := by
  unfold handleKey
  split
  · rename_i hescape
    obtain ⟨rfl, -⟩ := hescape
    rfl
  · cases hkey : key.keypad? with
    | none => simp
    | some place =>
      have hlt := Key.lt_of_keypad?_eq hkey
      obtain ⟨keypad, hset⟩ : ∃ keypad, e.machine.keypad.set place down = .ok keypad :=
        ⟨_, dif_pos hlt⟩
      simp only [Machine.setKey, hset, Outcome.done, Option.some.injEq]
      exact Keypad.isPressed_of_set hset slot

/-- Keys that are let go are up, and the others are where they were. -/
theorem isPressed_release (released : List Key) (e : Emulator) (slot : UInt8) :
    (released.foldl (fun e key => e.handleKey key false) e).machine.keypad.isPressed slot = true ↔
      e.machine.keypad.isPressed slot = true ∧ ∀ key ∈ released, key.keypad? ≠ some slot := by
  induction released generalizing e with
  | nil => simp
  | cons key released ih =>
    rw [List.foldl_cons, ih, isPressed_handleKey, List.forall_mem_cons]
    by_cases hkey : key.keypad? = some slot <;> simp [hkey]

theorem lasting_keypad : Machine.Lasting fun m m' => m'.keypad = m.keypad where
  refl _ := rfl
  trans h h' := h'.trans h
  execute i m := (i.sameFrame_execute m).keypad
  track _ _ _ _ _ := rfl

theorem keypad_runFrame (e : Emulator) : e.runFrame.state.machine.keypad = e.machine.keypad :=
  runFrame_related lasting_keypad (fun _ => rfl) e

/-- The keypad belongs to the host; no frame moves a key. -/
theorem keypad_advance (e : Emulator) : e.advance.state.machine.keypad = e.machine.keypad := by
  have hframe := e.keypad_runFrame
  unfold advance
  split
  · rfl
  · generalize e.runFrame = outcome at hframe ⊢
    obtain ⟨e', (_ | _) | _⟩ := outcome <;> exact hframe

theorem keypad_update (state : Emulator × FrameBuffer) :
    (update state).state.1.machine.keypad = state.1.machine.keypad := by
  rw [fst_update]
  exact state.1.keypad_advance

end Emulator

namespace HeldKeys

variable {held : HeldKeys} {e : Emulator}

/-! ## The keys that are down -/

theorem eq_of_key_eq (hnodup : (held.map (·.key)).Nodup) {h h' : HeldKey} (hmem : h ∈ held)
    (hmem' : h' ∈ held) (hkey : h.key = h'.key) : h = h' :=
  List.inj_on_of_nodup_map hnodup hmem hmem' hkey

theorem Shown.nil {keypad : Keypad} (hup : ∀ slot, keypad.isPressed slot = false) :
    Shown [] keypad :=
  ⟨.nil, by simp, by simp, by simp [hup]⟩

/-- A report moves a key in the list and on the keypad. -/
theorem Shown.report (h : held.Shown e.machine.keypad) {frames : Nat} (hframes : 0 < frames)
    (r : KeyReport) :
    (held.report frames r).Shown (e.handleKey r.key r.isPress).machine.keypad := by
  have hreport {other : HeldKey} : other ∈ held.report frames r ↔ _ := mem_report h.mapped
  refine ⟨nodup_report h.nodup frames r, fun other hmem => ?_, fun other hmem => ?_, fun slot => ?_⟩
  · have hother := hreport.mp hmem
    split at hother
    · exact hother.2.1
    · exact h.mapped other hother
  · have hother := hreport.mp hmem
    split at hother
    · omega
    · exact h.left other hother
  · rw [Emulator.isPressed_handleKey]
    by_cases hkey : r.key.keypad? = some slot
    · rw [if_pos hkey]
      constructor
      · intro hpress
        exact ⟨⟨r.key, frames⟩, hreport.mpr (by simp [hpress, hkey]), hkey⟩
      · rintro ⟨other, hmem, hother⟩
        have hself := hreport.mp hmem
        rw [if_pos (Key.keypad?_injective hother hkey)] at hself
        exact hself.1
    · rw [if_neg hkey, h.pressed]
      refine exists_congr fun other => and_congr_left fun hother => ?_
      have hne : other.key ≠ r.key := fun heq => hkey (heq ▸ hother)
      rw [hreport, if_neg hne]

/-- The end of a frame lets the same keys go in the list and on the keypad. -/
theorem Shown.tick (h : held.Shown e.machine.keypad) :
    held.tick.1.Shown
      (held.tick.2.foldl (fun e key => e.handleKey key false) e).machine.keypad := by
  refine ⟨nodup_tick h.nodup, fun ⟨key, frames⟩ hmem => ?_, fun ⟨key, frames⟩ hmem => ?_,
    fun slot => ?_⟩
  · exact h.mapped ⟨key, frames + 1⟩ (mem_tick.mp hmem).1
  · exact (mem_tick.mp hmem).2
  · rw [Emulator.isPressed_release, h.pressed]
    constructor
    · rintro ⟨⟨⟨key, frames⟩, hmem, hkey⟩, hkept⟩
      have hframes : 1 < frames := by
        refine Nat.lt_of_not_le fun hover => ?_
        exact hkept key (mem_released.mpr ⟨⟨key, frames⟩, hmem, rfl, hover⟩) hkey
      refine ⟨⟨key, frames - 1⟩, mem_tick.mpr ?_, hkey⟩
      rw [Nat.sub_add_cancel (Nat.le_of_lt hframes)]
      exact ⟨hmem, Nat.sub_pos_of_lt hframes⟩
    · rintro ⟨⟨key, frames⟩, hmem, hkey⟩
      obtain ⟨hheld, hframes⟩ := mem_tick.mp hmem
      refine ⟨⟨_, hheld, hkey⟩, fun key' hreleased hkey' => ?_⟩
      obtain ⟨⟨_, frames'⟩, hheld', rfl, hover⟩ := mem_released.mp hreleased
      have hsame := eq_of_key_eq h.nodup hheld' hheld (Key.keypad?_injective hkey' hkey)
      cases hsame
      dsimp only at hover
      omega

end HeldKeys

namespace Terminal

/-! ## What the reports tell -/

/-- The reports of the first `n` polls, each with the number of its poll. -/
def reported (script : List (List KeyReport)) (n : Nat) : List (Nat × KeyReport) :=
  (List.range n).flatMap fun poll => (script.getD poll []).map fun r => (poll, r)

/-- The last of some reports that is about a key. -/
def lastReport? (reports : List (Nat × KeyReport)) (key : Key) : Option (Nat × KeyReport) :=
  (reports.filter fun (_, r) => r.key = key).getLast?

theorem reported_succ (script : List (List KeyReport)) (n : Nat) :
    reported script (n + 1) = reported script n ++ (script.getD n []).map fun r => (n, r) := by
  simp [reported, List.range_succ]

theorem lastReport?_append (reports : List (Nat × KeyReport)) (poll : Nat) (r : KeyReport)
    (key : Key) :
    lastReport? (reports ++ [(poll, r)]) key =
      if r.key = key then some (poll, r) else lastReport? reports key := by
  by_cases hkey : r.key = key <;> simp [lastReport?, List.filter_append, hkey]

/-- A report that was the last on a key came from a poll that there has been. -/
theorem lt_of_lastReport?_eq {script : List (List KeyReport)} {n poll : Nat} {r : KeyReport}
    {key : Key} (h : lastReport? (reported script n) key = some (poll, r)) : poll < n := by
  have hmem := List.mem_of_getLast? h
  obtain ⟨place, hplace, hreport⟩ := List.mem_flatMap.mp (List.mem_filter.mp hmem).1
  obtain ⟨_, -, heq⟩ := List.mem_map.mp hreport
  cases heq
  exact List.mem_range.mp hplace

end Terminal

open Terminal (reported lastReport?)

/-- The held keys are those whose last report says that they were pressed, less than `hold` frames
before `now`, and each has what is left of these frames. -/
def HeldKeys.Tracks (held : HeldKeys) (hold now : Nat) (reports : List (Nat × KeyReport)) : Prop :=
  ∀ key frames, ⟨key, frames⟩ ∈ held ↔
    key.keypad?.isSome ∧ ∃ poll, lastReport? reports key = some (poll, .press key) ∧
      frames + now = poll + hold ∧ 0 < frames

namespace HeldKeys

variable {held : HeldKeys} {hold now : Nat} {reports : List (Nat × KeyReport)}

theorem Tracks.nil (hold now : Nat) : Tracks [] hold now [] := by
  simp [Tracks, lastReport?]

theorem Tracks.mapped (h : held.Tracks hold now reports) : ∀ k ∈ held, k.key.keypad?.isSome :=
  fun ⟨key, frames⟩ hmem => ((h key frames).mp hmem).1

theorem Tracks.report (h : held.Tracks hold now reports) (hhold : 0 < hold) (r : KeyReport) :
    (held.report hold r).Tracks hold now (reports ++ [(now, r)]) := by
  intro key frames
  rw [mem_report h.mapped, Terminal.lastReport?_append]
  dsimp only
  by_cases hkey : r.key = key
  · rw [if_pos hkey.symm, if_pos hkey]
    cases r with
    | press key' =>
      obtain rfl : key' = key := hkey
      constructor
      · rintro ⟨-, hsome, rfl⟩
        exact ⟨hsome, now, rfl, Nat.add_comm _ _, hhold⟩
      · rintro ⟨hsome, poll, hpoll, hframes, -⟩
        cases hpoll
        exact ⟨rfl, hsome, by omega⟩
    | release key' => simp [KeyReport.isPress]
  · rw [if_neg (Ne.symm hkey), if_neg hkey]
    exact h key frames

theorem Tracks.tick (h : held.Tracks hold now reports) : held.tick.1.Tracks hold (now + 1) reports := by
  intro key frames
  rw [mem_tick, h key (frames + 1), and_assoc]
  refine and_congr_right fun _ => ?_
  constructor
  · rintro ⟨⟨poll, hlast, hframes, -⟩, hpos⟩
    exact ⟨poll, hlast, by omega, hpos⟩
  · rintro ⟨poll, hlast, hframes, hpos⟩
    exact ⟨⟨poll, hlast, by omega, Nat.succ_pos frames⟩, hpos⟩

end HeldKeys

namespace Terminal

/-! ## One turn -/

/-- What a run in a terminal has at the start of turn `now`. -/
structure Holding (script : List (List KeyReport)) (holdFrames now : Nat) (t : Terminal) : Prop where
  holdFrames_eq : t.holdFrames = holdFrames
  polls_eq : t.polls = (script.drop now).map .ok
  shown : t.held.Shown t.emulator.machine.keypad
  tracks : t.held.Tracks (max 1 holdFrames) now (reported script now)

theorem redraw_keeps (t : Terminal) :
    t.redraw.holdFrames = t.holdFrames ∧ t.redraw.polls = t.polls ∧ t.redraw.held = t.held ∧
      t.redraw.emulator = t.emulator ∧ t.redraw.picture = t.picture := by
  unfold redraw
  dsimp only
  split <;> exact ⟨rfl, rfl, rfl, rfl, rfl⟩

/-- Reports draw nothing. -/
theorem picture_readReports (t : Terminal) (reports : List KeyReport) :
    (t.readReports reports).picture = t.picture := by
  have hfold (reports : List KeyReport) (t : Terminal) :
      (reports.foldl report t).picture = t.picture := by
    induction reports generalizing t with
    | nil => rfl
    | cons r reports ih => exact ih (t.report r)
  exact hfold reports { t with polls := t.polls.tail }

/-- A turn whose picture has room advances the emulator between the reports of its poll and the end of
the time of held keys. -/
theorem turn_of_fits {t : Terminal} {reports : List KeyReport} (hpoll : t.nextPoll = .ok reports)
    (hfits : (t.readReports reports).emulator.Fits t.picture) :
    ∃ picture : FrameBuffer, picture.size = t.picture.size ∧
      t.turn = .done { t.readReports reports with
        emulator := (t.readReports reports).emulator.advance.state
        picture }.releaseKeys.redraw () := by
  obtain ⟨picture, hupdate, -⟩ := hfits.update
  have hsize := Emulator.size_update ((t.readReports reports).emulator, t.picture)
  rw [hupdate] at hsize
  refine ⟨picture, hsize, ?_⟩
  simp only [turn, hpoll, t.picture_readReports reports, hupdate, Outcome.done]

section Reports

variable {t : Terminal} {now : Nat} {seen : List (Nat × KeyReport)}

/-- Taking note of reports keeps the list and the keypad in step with the reports. -/
theorem foldl_report_keeps (hshown : t.held.Shown t.emulator.machine.keypad)
    (htracks : t.held.Tracks (max 1 t.holdFrames) now seen) (reports : List KeyReport) :
    let t' := reports.foldl report t
    t'.holdFrames = t.holdFrames ∧ t'.polls = t.polls ∧
      t'.held.Shown t'.emulator.machine.keypad ∧
      t'.held.Tracks (max 1 t.holdFrames) now (seen ++ reports.map fun r => (now, r)) := by
  have hpos : 0 < max 1 t.holdFrames := by omega
  induction reports generalizing t seen with
  | nil => exact ⟨rfl, rfl, hshown, by simpa using htracks⟩
  | cons r reports ih =>
    have hnext := ih (t := t.report r) (hshown.report hpos r) (htracks.report hpos r) hpos
    rw [List.append_assoc] at hnext
    exact hnext

theorem readReports_keeps (hshown : t.held.Shown t.emulator.machine.keypad)
    (htracks : t.held.Tracks (max 1 t.holdFrames) now seen) (reports : List KeyReport) :
    let t' := t.readReports reports
    t'.holdFrames = t.holdFrames ∧ t'.polls = t.polls.tail ∧
      t'.held.Shown t'.emulator.machine.keypad ∧
      t'.held.Tracks (max 1 t.holdFrames) now (seen ++ reports.map fun r => (now, r)) :=
  foldl_report_keeps (t := { t with polls := t.polls.tail }) hshown htracks reports

end Reports

namespace Holding

variable {script : List (List KeyReport)} {holdFrames now : Nat} {t : Terminal}

/-- A run in which no key is down starts with none held. -/
theorem start {e : Emulator} (hup : ∀ slot, e.machine.keypad.isPressed slot = false)
    (script : List (List KeyReport)) (holdFrames : Nat) :
    Holding script holdFrames 0 { emulator := e, polls := script.map .ok, holdFrames } :=
  ⟨rfl, by simp, .nil hup, .nil _ 0⟩

theorem nextPoll (h : Holding script holdFrames now t) :
    t.nextPoll = .ok (script.getD now []) := by
  rw [Terminal.nextPoll, h.polls_eq]
  cases hpoll : script[now]? <;> simp [List.head?_drop, hpoll]

theorem readReports (h : Holding script holdFrames now t) :
    let t' := t.readReports (script.getD now [])
    t'.holdFrames = holdFrames ∧ t'.polls = (script.drop (now + 1)).map .ok ∧
      t'.held.Shown t'.emulator.machine.keypad ∧
      t'.held.Tracks (max 1 holdFrames) now (reported script (now + 1)) := by
  have htracks : t.held.Tracks (max 1 t.holdFrames) now (reported script now) := by
    rw [h.holdFrames_eq]
    exact h.tracks
  have hkeeps := readReports_keeps h.shown htracks (script.getD now [])
  rw [h.holdFrames_eq, h.polls_eq, ← reported_succ, ← List.map_tail, List.tail_drop] at hkeeps
  exact hkeeps

/-- The keys that are down when the reports of a turn have been read. -/
theorem isPressed_readReports (h : Holding script holdFrames now t) {slot : UInt8} {key : Key}
    (hkey : key.keypad? = some slot) :
    (t.readReports (script.getD now [])).emulator.machine.keypad.isPressed slot = true ↔
      ∃ poll, lastReport? (reported script (now + 1)) key = some (poll, .press key) ∧
        poll ≤ now ∧ now - poll < max holdFrames 1 := by
  obtain ⟨-, -, hshown, htracks⟩ := h.readReports
  rw [hshown.pressed]
  constructor
  · rintro ⟨⟨key', frames⟩, hmem, hkey'⟩
    obtain rfl : key' = key := Key.keypad?_injective hkey' hkey
    obtain ⟨-, poll, hlast, hframes, hpos⟩ := (htracks key' frames).mp hmem
    have hpoll := lt_of_lastReport?_eq hlast
    exact ⟨poll, hlast, by omega, by omega⟩
  · rintro ⟨poll, hlast, hpoll, hage⟩
    refine ⟨⟨key, poll + max 1 holdFrames - now⟩, (htracks key _).mpr ?_, hkey⟩
    exact ⟨by rw [hkey]; rfl, poll, hlast, by omega, by omega⟩

/-- A turn leaves the held keys and the keypad in step, and the next turn starts from there. -/
theorem turn (h : Holding script holdFrames now t) :
    t.turn.state.held.Shown t.turn.state.emulator.machine.keypad ∧
      ∀ a, t.turn.result = .ok a → Holding script holdFrames (now + 1) t.turn.state := by
  obtain ⟨hframes, hpolls, hshown, htracks⟩ := h.readReports
  rw [Terminal.turn, h.nextPoll]
  dsimp only
  generalize t.readReports (script.getD now []) = t' at hframes hpolls hshown htracks ⊢
  have hkeypad := Emulator.keypad_update (t'.emulator, t'.picture)
  generalize Emulator.update (t'.emulator, t'.picture) = outcome at hkeypad ⊢
  obtain ⟨⟨e, picture⟩, _ | _⟩ := outcome
  · exact ⟨hkeypad ▸ hshown, fun a hresult => nomatch hresult⟩
  · obtain ⟨hframes', hpolls', hheld', hemulator', -⟩ :=
      redraw_keeps { t' with emulator := e, picture }.releaseKeys
    have hshown' : t'.held.tick.1.Shown
        (t'.held.tick.2.foldl (fun e key => e.handleKey key false) e).machine.keypad :=
      HeldKeys.Shown.tick (hkeypad ▸ hshown)
    simp only [Outcome.done]
    rw [hheld', hemulator']
    refine ⟨hshown', fun _ _ => ⟨hframes'.trans hframes, hpolls'.trans hpolls, ?_, ?_⟩⟩
    · rw [hheld', hemulator']
      exact hshown'
    · rw [hheld']
      exact htracks.tick

end Holding

/-! ## The result -/

/-- In every turn of a run that starts with no key down, a key of the keypad is down for the whole
frame exactly if the last report so far on the key that stands for it says that it was pressed and is
not older than the frames for which keys are held.  All along no key is held twice, every held key
has a frame left, so that counting down does not fail, and the keys of the keypad that are down are
those that the held keys stand for. -/
theorem key_is_down_while_held {e : Emulator}
    (hup : ∀ slot, e.machine.keypad.isPressed slot = false) (script : List (List KeyReport))
    (holdFrames : Nat) (limit : Option Nat) {now : Nat} {t : Terminal}
    (hvisited : (Outcome.visited isOver turn (Headless.framesLeft limit e)
      { emulator := e, polls := script.map .ok, holdFrames })[now]? = some t) :
    let reports := script.getD now []
    let playing := t.readReports reports
    t.nextPoll = .ok reports ∧
      (∀ slot, slot.toNat < 16 → ∃ key : Key, key.keypad? = some slot ∧
        (∀ key' : Key, key'.keypad? = some slot → key' = key) ∧
        (playing.emulator.machine.keypad.isPressed slot = true ↔
          ∃ poll, lastReport? (reported script (now + 1)) key = some (poll, .press key) ∧
            poll ≤ now ∧ now - poll < max holdFrames 1)) ∧
      (∀ inspect n, (playing.emulator.machine.cycles inspect n).state.keypad =
        playing.emulator.machine.keypad) ∧
      (Emulator.update (playing.emulator, playing.picture)).state.1.machine.keypad =
        playing.emulator.machine.keypad ∧
      t.held.Shown t.emulator.machine.keypad ∧
      (∀ n, (t.readReports (reports.take n)).held.Shown
        (t.readReports (reports.take n)).emulator.machine.keypad) ∧
      playing.held.tick? = some playing.held.tick ∧
      t.turn.state.held.Shown t.turn.state.emulator.machine.keypad := by
  intro reports playing
  have h : Holding script holdFrames now t := by
    have hinduction := Outcome.visited_induction
      (fun _ _ a hholding _ hresult => hholding.turn.2 a hresult) (Holding.start hup script holdFrames)
      hvisited
    rwa [Nat.zero_add] at hinduction
  obtain ⟨-, -, hshown, -⟩ := h.readReports
  refine ⟨h.nextPoll, fun slot hslot => ?_, fun inspect n => ?_, Emulator.keypad_update _,
    h.shown, fun n => ?_, HeldKeys.tick?_eq hshown.left, h.turn.1⟩
  · obtain ⟨key, hkey⟩ := Key.exists_keypad?_eq hslot
    exact ⟨key, hkey, fun _ hkey' => Key.keypad?_injective hkey' hkey, h.isPressed_readReports hkey⟩
  · exact Emulator.lasting_keypad.cycles inspect n playing.emulator.machine
  · have htracks : t.held.Tracks (max 1 t.holdFrames) now (reported script now) := by
      rw [h.holdFrames_eq]
      exact h.tracks
    exact (readReports_keeps h.shown htracks (reports.take n)).2.2.1

/-- A program that never ends, in a run that holds keys for two frames.  In the second turn, in which
nothing is reported, the key of the first is still down. -/
theorem key_is_down_while_held_twice :
    ∃ m, Machine.new {} (.replicate 8 0) = .ok m ∧
      let e : Emulator :=
        { machine := (m.load #[0x12, 0x00]).state, settings := { instructionsPerSecond := 60 } }
      ∃ t, (Outcome.visited isOver turn (Headless.framesLeft (some 2) e)
          { emulator := e, polls := [.ok [.press .w]], holdFrames := 2 })[1]? = some t ∧
        t.nextPoll = .ok [] ∧ (t.readReports []).emulator.machine.keypad.isPressed 5 = true := by
  obtain ⟨m, hnew⟩ : ∃ m, Machine.new {} (.replicate 8 0) = .ok m := ⟨_, rfl⟩
  refine ⟨m, hnew, ?_⟩
  intro e
  have hfresh := Machine.fresh_of_new hnew
  have hload : m.load #[0x12, 0x00] = _ := hfresh.load (by decide)
  have hsound : e.machine.Sound := hfresh.sound.loadAt #[0x12, 0x00] m.config.loadAddress
  have hrunning : e.machine.exitCode = none := by
    simp only [e, hload]
    rfl
  have hopcode : e.machine.nextOpcode = some (.ofBytes 0x12 0x00) :=
    hfresh.nextOpcode_load (by decide) rfl rfl (by decide)
  have hup : ∀ slot, e.machine.keypad.isPressed slot = false := by
    have hkeypad : e.machine.keypad = {} := by
      simp only [e, hload]
      exact hfresh.keypad_eq
    rw [hkeypad]
    exact Keypad.isPressed_new
  have hover : e.isOver = false := by
    rw [Emulator.isOver, Machine.hasHalted, hrunning]
    rfl
  -- The first turn presses the key and makes one jump.
  have hpressed : (e.handleKey .w true).machine.Sound := Machine.sound_setKey hsound 5 true
  obtain ⟨m', hstep, hrunning'⟩ : ∃ m', (e.handleKey .w true).machine.step = .done m' () ∧
      m'.exitCode = none :=
    ⟨_, hpressed.step_of_execute hrunning hopcode
      (Opcode.decode_of_nibbles_eq (i := .jump 0x200) rfl) rfl, hrunning⟩
  have hcycles : (e.handleKey .w true).cyclesPerFrame = 1 := by
    show max 1 ((60 : UInt32).toNat / 60) = 1
    decide
  have hadvance := Emulator.advance_eq hpressed hover
  rw [Emulator.framed_of_step (e := e.handleKey .w true) rfl hcycles hover hstep] at hadvance
  let t : Terminal := { emulator := e, polls := [.ok [.press .w]], holdFrames := 2 }
  obtain ⟨hresult, hnotOver⟩ : t.turn.result = .ok () ∧ t.turn.state.isOver = false := by
    have hheld : (t.readReports [.press .w]).held.tick = ([⟨.w, 1⟩], []) := by
      show HeldKeys.tick [⟨.w, 2⟩] = _
      simp [HeldKeys.tick]
    have hshape : Screen.standard.SameShape e.machine.screen := hfresh.sameShape_load #[0x12, 0x00]
    have hemulator : (t.readReports [.press .w]).emulator = e.handleKey .w true := rfl
    obtain ⟨picture, -, hturn⟩ := turn_of_fits (show t.nextPoll = .ok [.press .w] from rfl)
      (.of_sameShape hpressed (hshape.trans (e.sameShape_handleKey .w true)) FrameBuffer.size_blank)
    rw [hturn, hemulator, hadvance]
    refine ⟨rfl, ?_⟩
    simp only [Emulator.takeDirty, Outcome.done, isOver]
    rw [(redraw_keeps _).2.2.2.1, releaseKeys, hheld]
    show (false || m'.exitCode.isSome) = false
    rw [hrunning']
    rfl
  have hvisited : (Outcome.visited isOver turn (Headless.framesLeft (some 2) e) t)[1]? =
      some t.turn.state := by
    show (Outcome.visited isOver turn 2 t)[1]? = some t.turn.state
    rw [Outcome.visited_succ (show t.isOver = false from hover), hresult, List.getElem?_cons_succ]
    dsimp only
    rw [Outcome.visited_succ hnotOver]
    rfl
  obtain ⟨hpoll, hdown, -⟩ :=
    key_is_down_while_held hup [[.press .w]] 2 (some 2) hvisited
  obtain ⟨key, hkey, -, hiff⟩ := hdown 5 (by decide)
  obtain rfl : key = .w := Key.keypad?_injective hkey rfl
  exact ⟨_, hvisited, hpoll, hiff.mpr ⟨0, by decide, by decide, by decide⟩⟩

end Terminal

end Chip8
