import Chip8.Proofs.Emulator.Requests
import Chip8.Proofs.Terminal.Display
import Chip8.Proofs.Terminal.KeyHold

/-!
# What a run writes to the terminal

A run in a terminal writes the screen after the first turn and after every turn in which the text of the
screen has changed.  That is all it writes, and it is enough: a terminal that makes sense of what was
written shows the screen after every turn.

* `Terminal.written`: what is to be written for the texts of the screen after the turns of a run.
* `Emulator.Standard` and `Terminal.Standard`: an emulator whose screen has the shape of the machine's
  own, and a run of it with a buffer for its picture.  Keys, frames and turns keep it so.
* `Terminal.turn_cases`: a turn fails with its poll and writes nothing, or succeeds and ends with
  `Terminal.redraw`.
* `Terminal.Replayed`: what a run has written so far and what it shows (`Replayed.turn`).
-/

namespace Chip8

/-! ## Emulators with the machine's own screen -/

/-- The machine is sound, and its screen has the shape of its own. -/
structure Emulator.Standard (e : Emulator) : Prop where
  sound : e.machine.Sound
  shape : Screen.standard.SameShape e.machine.screen

namespace Emulator.Standard

variable {e : Emulator} (h : e.Standard)

include h

theorem height_eq : e.machine.screen.height = 32 := h.shape.height

theorem width_eq : e.machine.screen.width = 64 := h.shape.width

theorem handleKey (key : Key) (down : Bool) : (e.handleKey key down).Standard :=
  ⟨sound_handleKey h.sound key down, h.shape.trans (e.sameShape_handleKey key down)⟩

theorem release (released : List Key) :
    (released.foldl (fun e key => e.handleKey key false) e).Standard := by
  induction released generalizing e with
  | nil => exact h
  | cons key released ih => exact ih (h.handleKey key false)

theorem advance : e.advance.state.Standard :=
  ⟨(sound_advance h.sound).1, h.shape.trans e.sameShape_advance⟩

end Emulator.Standard

namespace Terminal

/-- The screen has the shape of the machine's own, and the buffer is as large as its picture. -/
structure Standard (t : Terminal) : Prop where
  emulator : t.emulator.Standard
  size_picture : t.picture.size = 6144

/-! ## What is to be written -/

/-- The text of the screen. -/
def text (t : Terminal) : String := t.emulator.machine.screen.text

/-- What puts a text on the terminal: for each row the sequence that moves the cursor to its start, and
the line of the text. -/
def pieces (text : String) : List String :=
  (List.range 32).map fun y => "\x1b[" ++ toString (y + 1) ++ ";1H" ++ Screen.line 64 text y

/-- What is to be written for the texts of the screen after each turn of a run: the first of them, and
those that differ from the one before. -/
def written (texts : List String) : String :=
  String.join (texts.zipIdx.map fun (text, n) =>
    if n = 0 ∨ texts[n - 1]? ≠ some text then String.join (pieces text) else "")

/-- A drawing consists of the pieces of the text. -/
theorem drawing_eq {s : Screen} (hshape : Screen.standard.SameShape s) :
    drawing s = String.join (pieces s.text) := by
  have hheight : s.height = 32 := hshape.height
  have hwidth : s.width = 64 := hshape.width
  rw [drawing, pieces, Screen.rows_eq, Screen.zipIdx_map_range, List.map_map, hheight]
  refine congrArg String.join (List.map_congr_left fun y hy => ?_)
  have hline := Screen.line_text (s := s) (y := y) (by rw [hheight]; exact List.mem_range.mp hy)
  rw [hwidth] at hline
  rw [hline]
  rfl

theorem join_pieces_ne_empty (text : String) : String.join (pieces text) ≠ "" := by
  intro h
  have hlist := congrArg String.toList h
  rw [pieces, List.range_succ_eq_map, List.map_cons, String.join_cons, String.toList_append,
    String.append_assoc, String.append_assoc, String.toList_append] at hlist
  simp at hlist

/-- A further text is written if it is not the last one so far. -/
theorem written_concat (texts : List String) (text : String) :
    written (texts ++ [text]) =
      written texts ++ if texts.getLast? = some text then "" else String.join (pieces text) := by
  have hbefore : ∀ p ∈ texts.zipIdx,
      (if p.2 = 0 ∨ (texts ++ [text])[p.2 - 1]? ≠ some p.1 then String.join (pieces p.1) else "") =
        if p.2 = 0 ∨ texts[p.2 - 1]? ≠ some p.1 then String.join (pieces p.1) else "" := by
    intro p hp
    have hlt : p.2 - 1 < texts.length := by
      have := (List.mem_zipIdx hp).2.1
      omega
    rw [List.getElem?_append_left hlt]
  rw [written, List.zipIdx_append, List.map_append, String.join_append, List.map_congr_left hbefore]
  refine congrArg (written texts ++ ·) ?_
  rw [List.zipIdx_singleton, Nat.zero_add, List.map_singleton, String.join_cons,
    String.join_nil, String.append_empty]
  dsimp only
  rcases Nat.eq_zero_or_pos texts.length with hempty | hpos
  · simp [List.length_eq_zero_iff.mp hempty]
  · rw [List.getElem?_append_left (by omega), List.getLast?_eq_getElem?]
    by_cases hsame : texts[texts.length - 1]? = some text
    · simp [hsame, Nat.ne_of_gt hpos]
    · simp [hsame]

/-! ## A turn -/

/-- Reports move keys and write nothing. -/
theorem foldl_report_standard (reports : List KeyReport) {t : Terminal} (h : t.emulator.Standard) :
    let t' := reports.foldl report t
    t'.emulator.Standard ∧ t'.shown = t.shown ∧ t'.output = t.output ∧ t'.polls = t.polls := by
  induction reports generalizing t with
  | nil => exact ⟨h, rfl, rfl, rfl⟩
  | cons r reports ih => exact ih (t := t.report r) (h.handleKey r.key r.isPress)

/-- A turn fails with its poll and writes nothing, or it succeeds, and all that it writes is what it
redraws at its end. -/
theorem turn_cases {t : Terminal} (h : t.Standard) :
    (∃ message, t.nextPoll = .error message ∧
      t.turn = .fail { t with polls := t.polls.tail } (.input message)) ∨
    ∃ (reports : List KeyReport) (t' : Terminal), t.nextPoll = .ok reports ∧
      t.turn = .done t'.redraw () ∧ t'.Standard ∧ t'.shown = t.shown ∧
      t'.output = t.output ∧ t'.polls = t.polls.tail := by
  cases hpoll : t.nextPoll with
  | error message => exact .inl ⟨message, rfl, by simp only [turn, hpoll]⟩
  | ok reports =>
    obtain ⟨hstandard, hshown, houtput, hpolls⟩ :=
      foldl_report_standard reports (t := { t with polls := t.polls.tail }) h.emulator
    obtain ⟨picture, hsize, hturn⟩ :=
      turn_of_fits hpoll (.of_sameShape hstandard.sound hstandard.shape h.size_picture)
    exact .inr ⟨reports, _, rfl, hturn,
      ⟨hstandard.advance.release (t.readReports reports).held.tick.2, hsize.trans h.size_picture⟩,
      hshown, houtput, hpolls⟩

/-! ## A run -/

/-- What a run has written when the turns so far have left the terminals `past`, the last of them `t`. -/
structure Replayed (polls : List Poll) (past : List Terminal) (t : Terminal) : Prop where
  standard : t.Standard
  polls_eq : t.polls = polls.drop past.length
  answered : ∀ n < past.length, ∃ reports, polls.getD n (.ok []) = .ok reports
  output : t.output = written (past.map text)
  shown : past = [] ∧ t.shown = "" ∨
    past.getLast? = some t ∧ t.shown = t.text ∧ ∀ start : Display, start.mode = .text →
      (start.interpret t.output).Shows t.emulator.machine.screen start

namespace Replayed

variable {polls : List Poll} {past : List Terminal} {t t' : Terminal}

theorem start {e : Emulator} (h : e.Standard) (polls : List Poll) (holdFrames : Nat) :
    Replayed polls [] { emulator := e, polls, holdFrames } :=
  ⟨⟨h, FrameBuffer.size_blank⟩, rfl, by simp, rfl, .inl ⟨rfl, rfl⟩⟩

theorem nextPoll (h : Replayed polls past t) :
    t.nextPoll = polls.getD past.length (.ok []) := by
  rw [Terminal.nextPoll, h.polls_eq]
  simp [List.headD_eq_head?_getD, List.head?_drop, List.getD_eq_getElem?_getD]

/-- A poll that fails is one of the script. -/
theorem poll_eq_error (h : Replayed polls past t) {message : String}
    (hpoll : t.nextPoll = .error message) : polls[past.length]? = some (.error message) := by
  rw [h.nextPoll, List.getD_eq_getElem?_getD] at hpoll
  cases hscript : polls[past.length]? with
  | none =>
    rw [hscript] at hpoll
    cases hpoll
  | some poll =>
    rw [hscript] at hpoll
    exact congrArg some hpoll

/-- Redrawing at the end of a turn writes the text if it is to be written, and then the terminal shows
the screen. -/
theorem redraw (h : Replayed polls past t) (hstandard : t'.Standard)
    (hshown : t'.shown = t.shown) (houtput : t'.output = t.output) :
    t'.redraw.output = written (past.map text ++ [t'.text]) ∧ t'.redraw.shown = t'.text ∧
      ∀ start : Display, start.mode = .text →
        (start.interpret t'.redraw.output).Shows t'.emulator.machine.screen start := by
  have hshape : Screen.SameShape t.emulator.machine.screen t'.emulator.machine.screen :=
    h.standard.emulator.shape.symm.trans hstandard.emulator.shape
  have hnonempty : t'.text ≠ "" := Screen.text_ne_empty (by rw [hstandard.emulator.height_eq]; decide)
  rw [written_concat, List.getLast?_map, ← h.output, ← houtput]
  by_cases hsame : t'.text = t'.shown
  · have hredraw : t'.redraw = t' := if_pos hsame
    rw [hshown] at hsame
    rcases h.shown with ⟨-, hfresh⟩ | ⟨hlast, hcurrent, hshows⟩
    · exact absurd (hsame.trans hfresh) hnonempty
    · have htext : t.text = t'.text := (hsame.trans hcurrent).symm
      rw [hredraw, hlast, Option.map_some, htext, if_pos rfl, String.append_empty]
      refine ⟨rfl, hshown.trans hsame.symm, fun start hmode => ?_⟩
      rw [houtput]
      exact (hshows start hmode).of_text_eq hshape htext
  · have hredraw : t'.redraw = { t' with
        shown := t'.text, output := t'.output ++ drawing t'.emulator.machine.screen } := if_neg hsame
    rw [hshown] at hsame
    have hnew : ¬ past.getLast?.map text = some t'.text := by
      rcases h.shown with ⟨rfl, -⟩ | ⟨hlast, hcurrent, -⟩
      · simp
      · rw [hlast, Option.map_some, Option.some.injEq, ← hcurrent]
        exact fun heq => hsame heq.symm
    rw [hredraw, if_neg hnew]
    refine ⟨congrArg (t'.output ++ ·) (drawing_eq hstandard.emulator.shape), rfl, fun start hmode => ?_⟩
    rw [Display.interpret_append, houtput]
    rcases h.shown with ⟨rfl, -⟩ | ⟨-, -, hshows⟩
    · rw [h.output]
      exact Display.shows_drawing hmode _
    · exact (hshows start hmode).drawing hshape

/-- A turn that succeeds adds to what has been written. -/
theorem turn (h : Replayed polls past t) {a : Unit} (hresult : t.turn.result = .ok a) :
    Replayed polls (past ++ [t.turn.state]) t.turn.state := by
  rcases turn_cases h.standard with
    ⟨message, -, hturn⟩ | ⟨reports, t', hpoll, hturn, hstandard, hshown, houtput, hpolls⟩
  · rw [hturn] at hresult
    cases hresult
  · obtain ⟨-, hpolls', -, hemulator, hpicture⟩ := t'.redraw_keeps
    obtain ⟨houtput', hshown', hshows⟩ := h.redraw hstandard hshown houtput
    have htext : t'.redraw.text = t'.text := by rw [text, hemulator]; rfl
    have hlength : (past ++ [t'.redraw]).length = past.length + 1 := by simp
    rw [hturn]
    show Replayed polls (past ++ [t'.redraw]) t'.redraw
    refine ⟨⟨hemulator ▸ hstandard.emulator, hpicture ▸ hstandard.size_picture⟩, ?_, fun n hn => ?_, ?_,
      .inr ⟨?_, ?_, ?_⟩⟩
    · rw [hlength, ← List.tail_drop, ← h.polls_eq, ← hpolls]
      exact hpolls'
    · rw [hlength] at hn
      rcases Nat.lt_or_eq_of_le (Nat.le_of_lt_succ hn) with hlt | rfl
      · exact h.answered n hlt
      · exact ⟨reports, h.nextPoll.symm.trans hpoll⟩
    · rw [List.map_append, List.map_singleton, htext]
      exact houtput'
    · exact List.getLast?_concat
    · exact hshown'.trans htext.symm
    · rw [hemulator]
      exact hshows

/-- A turn after the first writes nothing exactly if it leaves the text as it was. -/
theorem output_eq_iff {turns : List Terminal} {n : Nat} (hn : turns[n]? = some t)
    (hn' : turns[n + 1]? = some t') (h : Replayed polls (turns.take (n + 1)) t)
    (h' : Replayed polls (turns.take (n + 2)) t') : t'.output = t.output ↔ t.text = t'.text := by
  have hlast : (turns.take (n + 1)).getLast? = some t := by
    rw [List.getLast?_take, if_neg (Nat.succ_ne_zero n), Nat.add_sub_cancel, hn, Option.some_or]
  have hwritten := h'.output
  rw [List.take_add_one, hn', Option.toList_some, List.map_append, List.map_singleton, written_concat,
    List.getLast?_map, hlast, Option.map_some, ← h.output] at hwritten
  rw [hwritten]
  by_cases htext : t.text = t'.text
  · simp [htext]
  · have hnonempty := join_pieces_ne_empty t'.text
    simp [htext, hnonempty]

end Replayed

/-! ## The result -/

/-- What a run of an emulator with the machine's own screen writes, for every script of polls and every
limit of frames.  It writes the texts of the screen after its turns, leaving out those that are the same
as the one before, as pieces that put the rows at their places.  So a terminal that interprets what has
been written shows the screen after every turn, whatever it showed at the start, and nothing is written
in a turn, after the first, exactly if no pixel has changed.

Every turn that is counted has had an answer from its poll.  A run that is not at its end takes a further
turn, and if the poll of that one fails nothing is written in it and the run ends with the error of the
poll; there is no other error. -/
theorem output_replays_to_screen {e : Emulator} (hm : e.machine.Reachable)
    (hshape : Screen.standard.SameShape e.machine.screen) (polls : List Poll) (holdFrames : Nat)
    (limit : Option Nat) :
    let start : Terminal := { emulator := e, polls, holdFrames }
    let turns := Outcome.passed isOver turn (Headless.framesLeft limit e) start
    let final := start.run limit
    final.state.output = written (turns.map text) ∧
    (∀ n t, turns[n]? = some t →
      t.output = written ((turns.take (n + 1)).map text) ∧
      ∀ d : Display, d.mode = .text →
        (∀ y < 32, ∀ x < 64, ∃ lit, t.emulator.machine.screen.pixel? y x = some lit ∧
          (d.interpret t.output).cells y x = if lit then '#' else '.') ∧
        ∀ y x, ¬ (y < 32 ∧ x < 64) → (d.interpret t.output).cells y x = d.cells y x) ∧
    (∀ n t t', turns[n]? = some t → turns[n + 1]? = some t' →
      (t'.output = t.output ↔ ∀ y < 32, ∀ x < 64,
        t'.emulator.machine.screen.pixel? y x = t.emulator.machine.screen.pixel? y x)) ∧
    (∀ n < turns.length, ∃ reports, polls.getD n (.ok []) = .ok reports) ∧
    (final.result = .ok () ∧
        (final.state.isOver = true ∨ turns.length = Headless.framesLeft limit e) ∨
      ∃ message, polls[turns.length]? = some (.error message) ∧
        final.result = .error (.input message)) := by
  intro start turns final
  have hstart : Replayed polls [] start := .start ⟨hm.sound, hshape⟩ polls holdFrames
  have hstep : ∀ past t a, Replayed polls past t → t.isOver = false → t.turn.result = .ok a →
      Replayed polls (past ++ [t.turn.state]) t.turn.state :=
    fun _ _ _ h _ hresult => h.turn hresult
  have hreached {n : Nat} {t : Terminal} (hn : turns[n]? = some t) :
      Replayed polls (turns.take (n + 1)) t := Outcome.passed_history hstep hstart hn
  have hends := Outcome.repeatUntil_cases hstep hstart (Headless.framesLeft limit e)
  have hpixel {t : Terminal} (h : t.emulator.Standard) {y x : Nat} (hy : y < 32) (hx : x < 64) :
      t.emulator.machine.screen.pixel? y x = some (t.emulator.machine.screen.grid y x) :=
    Screen.pixel?_eq (h.shape.wellFormed Screen.wellFormed_standard) (h.height_eq ▸ hy)
      (h.width_eq ▸ hx)
  -- A turn that fails writes nothing, so the output is that of the last turn that succeeded.
  obtain ⟨t, ht, houtput, hresult⟩ : ∃ t, Replayed polls turns t ∧ final.state.output = t.output ∧
      (final.result = .ok () ∧
          (final.state.isOver = true ∨ turns.length = Headless.framesLeft limit e) ∨
        ∃ message, polls[turns.length]? = some (.error message) ∧
          final.result = .error (.input message)) := by
    rcases hends with ⟨t, hrun, ht, hlast⟩ | ⟨t, failure, ht, -, -, hfails, hrun⟩
    · rw [show final = .done t () from hrun]
      exact ⟨t, ht, rfl, .inl ⟨rfl, hlast⟩⟩
    · rw [show final = .fail t.turn.state failure from hrun]
      rcases turn_cases ht.standard with ⟨message, hnext, hturn⟩ | ⟨_, _, _, hturn, -⟩
      · rw [hturn] at hfails ⊢
        cases hfails
        exact ⟨t, ht, rfl, .inr ⟨message, ht.poll_eq_error hnext, rfl⟩⟩
      · rw [hturn] at hfails
        cases hfails
  refine ⟨houtput.trans ht.output, fun n t hn => ⟨(hreached hn).output, fun d hmode => ?_⟩,
    fun n t t' hn hn' => ?_, ht.answered, hresult⟩
  · have h := hreached hn
    rcases h.shown with ⟨hempty, -⟩ | ⟨-, -, hshows⟩
    · have hlt := (List.getElem?_eq_some_iff.mp hn).1
      simp only [List.take_eq_nil_iff, Nat.succ_ne_zero, false_or] at hempty
      rw [hempty] at hlt
      cases hlt
    · have hcells := (hshows d hmode).cells
      simp only [h.standard.emulator.height_eq, h.standard.emulator.width_eq] at hcells
      refine ⟨fun y hy x hx => ⟨_, hpixel h.standard.emulator hy hx, ?_⟩, fun y x hplace => ?_⟩
      · rw [hcells y x, if_pos ⟨hy, hx⟩]
        rfl
      · rw [hcells y x, if_neg hplace]
  · have h := hreached hn
    have h' := hreached hn'
    have hsame : Screen.SameShape t.emulator.machine.screen t'.emulator.machine.screen :=
      h.standard.emulator.shape.symm.trans h'.standard.emulator.shape
    rw [Replayed.output_eq_iff hn hn' h h', text, text, Screen.text_eq_iff hsame,
      h.standard.emulator.height_eq, h.standard.emulator.width_eq]
    refine forall₂_congr fun y hy => forall₂_congr fun x hx => ?_
    rw [hpixel h.standard.emulator hy hx, hpixel h'.standard.emulator hy hx, Option.some.injEq, eq_comm]

/-- A run that the escape key ends in its first turn.  No frame is run, and the dark screen is drawn all
the same. -/
theorem output_replays_to_screen_escape :
    ∃ m, Machine.new {} (.replicate 8 0) = .ok m ∧
      let e : Emulator := { machine := m, settings := {} }
      let start : Terminal := { emulator := e, polls := [.ok [.press .escape]], holdFrames := 6 }
      (start.run (some 2)).state.output = String.join (pieces Screen.standard.text) := by
  obtain ⟨m, hnew⟩ : ∃ m, Machine.new {} (.replicate 8 0) = .ok m := ⟨_, rfl⟩
  refine ⟨m, hnew, ?_⟩
  intro e start
  have hfresh := Machine.fresh_of_new hnew
  obtain ⟨houtput, -⟩ := output_replays_to_screen (e := e) (.new hnew)
    (hfresh.screen_eq ▸ .refl Screen.standard) [.ok [.press .escape]] 6 (some 2)
  let e' : Emulator := { e with stopped := true }
  obtain ⟨hresult, hemulator⟩ : start.turn.result = .ok () ∧ start.turn.state.emulator = e' := by
    have hadvance : (start.readReports [.press .escape]).emulator.advance = .done e' false := rfl
    obtain ⟨picture, -, hturn⟩ := turn_of_fits (show start.nextPoll = .ok [.press .escape] from rfl)
      (.of_sameShape hfresh.sound (hfresh.screen_eq ▸ .refl Screen.standard) FrameBuffer.size_blank)
    have hheld : (start.readReports [.press .escape]).held.tick = ([], []) := by
      show HeldKeys.tick [] = _
      rw [HeldKeys.tick]
    rw [hturn, hadvance]
    refine ⟨rfl, (redraw_keeps _).2.2.2.1.trans ?_⟩
    rw [releaseKeys, hheld]
    rfl
  have hover : start.isOver = false := by
    show m.exitCode.isSome = false
    rw [← hfresh.reset_eq]
    rfl
  have hover' : start.turn.state.isOver = true := by rw [isOver, hemulator]; rfl
  have hturns : Outcome.passed isOver turn 2 start = [start.turn.state] := by
    rw [Outcome.passed_succ hover, hresult]
    dsimp only
    rw [Outcome.passed_of_stop 1 hover']
  have htext : start.turn.state.text = Screen.standard.text := by
    rw [text, hemulator]
    exact congrArg Screen.text hfresh.screen_eq
  refine houtput.trans ?_
  show written ((Outcome.passed isOver turn 2 start).map text) = _
  rw [hturns, List.map_singleton, htext, ← List.nil_append [Screen.standard.text], written_concat]
  exact String.empty_append

end Terminal

end Chip8
