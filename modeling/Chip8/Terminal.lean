import Chip8.Headless
import Chip8.Terminal.HeldKeys

/-!
# Running in a terminal

A run in a terminal polls the keys before every frame and writes the screen after every frame in
which its text has changed, and after the first.  A terminal in raw mode does not return the carriage
at a line feed, so each row is put at its place with an escape sequence.  A poll that fails ends the
run at once.
-/

namespace Chip8

/-- What a poll of the keys answers: the reports since the last poll, or why there are none. -/
abbrev Poll := Except String (List KeyReport)

/-- A run in a terminal. -/
structure Terminal where
  /-- The emulator. -/
  emulator : Emulator
  /-- The answers of the polls to come; after them no key is reported any more. -/
  polls : List Poll
  /-- The number of frames that a key stays down. -/
  holdFrames : Nat
  /-- The buffer that pictures are drawn into. -/
  picture : FrameBuffer := .blank
  /-- The keys that are held down. -/
  held : HeldKeys := []
  /-- The text that the terminal shows. -/
  shown : String := ""
  /-- Everything that has been written to the terminal. -/
  output : String := ""

namespace Terminal

/-- Why a run in a terminal was interrupted. -/
inductive Interruption where
  /-- The keys could not be polled. -/
  | input (message : String)
  /-- The machine or its picture went out of bounds. -/
  | outOfBounds
deriving DecidableEq

/-- The number of frames that a key stays down if nothing else is asked for. -/
def defaultHoldFrames : Nat := 6

/-- The answer of the next poll. -/
def nextPoll (t : Terminal) : Poll := t.polls.headD (.ok [])

/-- Takes note of a report on a key. -/
def report (t : Terminal) (r : KeyReport) : Terminal :=
  { t with
    held := t.held.report (max 1 t.holdFrames) r
    emulator := t.emulator.handleKey r.key r.isPress }

/-- Takes note of the reports that the next poll has answered. -/
def readReports (t : Terminal) (reports : List KeyReport) : Terminal :=
  reports.foldl report { t with polls := t.polls.tail }

/-- Lets go of the keys whose time is over. -/
def releaseKeys (t : Terminal) : Terminal :=
  let (held, released) := t.held.tick
  { t with
    held
    emulator := released.foldl (fun e key => e.handleKey key false) t.emulator }

/-- What puts a row of the screen at its place. -/
def placedRow (row : String) (y : Nat) : String :=
  "\x1b[" ++ toString (y + 1) ++ ";1H" ++ row

/-- What draws the whole screen. -/
def drawing (s : Screen) : String :=
  String.join (s.rows.zipIdx.map fun (row, y) => placedRow (Screen.rowText row) y)

/-- Draws the screen if its text is not the one shown. -/
def redraw (t : Terminal) : Terminal :=
  let screen := t.emulator.machine.screen
  let text := screen.text
  if text = t.shown then t
  else { t with shown := text, output := t.output ++ drawing screen }

/-- One turn: the keys, a frame with its picture, the end of the time of held keys and the screen. -/
def turn (t : Terminal) : Outcome Terminal Interruption Unit :=
  match t.nextPoll with
  | .error message => .fail { t with polls := t.polls.tail } (.input message)
  | .ok reports =>
    let t := t.readReports reports
    match Emulator.update (t.emulator, t.picture) with
    | ⟨(emulator, picture), .ok _⟩ => .done { t with emulator, picture }.releaseKeys.redraw ()
    | ⟨(emulator, picture), .error _⟩ => .fail { t with emulator, picture } .outOfBounds

/-- Whether there is nothing left to run. -/
def isOver (t : Terminal) : Bool := t.emulator.isOver

/-- Runs up to a limit of frames. -/
def run (limit : Option Nat) (t : Terminal) : Outcome Terminal Interruption Unit :=
  .repeatUntil isOver turn (Headless.framesLeft limit t.emulator) t

end Terminal

end Chip8
