import Chip8.Color
import Chip8.Key
import Chip8.Machine.Step
import Chip8.Text.Record

/-!
# The emulator

An emulator drives a machine one video frame at a time.  A frame is a number of instructions that
follows from the settings, and then one tick of the timers, which may sound the beeper.  A frame in
which the machine fails ends there: the timers are not ticked and the frame is not counted.  The
emulator remembers the fault and asks to be stopped, as it does when the machine has halted and when
the escape key is pressed; from then on it does nothing.
-/

namespace Chip8

namespace Emulator

/-- How an emulator runs its machine. -/
structure Settings where
  /-- The number of instructions in a second. -/
  instructionsPerSecond : UInt32 := 500
  /-- Whether the sound timer sounds the beeper. -/
  sound : Bool := false
  /-- Whether every instruction is looked at, for the journal, before it is run. -/
  debug : Bool := false
deriving DecidableEq

/-- The settings as a record. -/
def Settings.record (s : Settings) : String :=
  Text.record "AppConfig" [
    ("instructions_per_second", toString s.instructionsPerSecond),
    ("sound", Text.flag s.sound),
    ("debug", Text.flag s.debug)]

/-- Sounds a tone for the length of a tick whenever it is asked to. -/
structure Beeper where
  /-- How often it has been asked. -/
  beeps : Nat := 0
  /-- Whether each beep goes into the journal. -/
  journals : Bool := false
deriving DecidableEq

/-- Sounds a tone. -/
def Beeper.beep (b : Beeper) : Beeper := { b with beeps := b.beeps + 1 }

/-- The number of frames in a second. -/
def frameRate : Nat := 60

/-- The number of screen points that a pixel is wide and high in a window. -/
def scale : Nat := 12

/-- The title of a window. -/
def title : String := "Octet CHIP-8"

end Emulator

/-- A machine with what is needed to run it frame by frame. -/
structure Emulator where
  /-- The machine. -/
  machine : Machine
  /-- How it is run. -/
  settings : Emulator.Settings
  /-- What sounds when the sound timer runs. -/
  beeper : Emulator.Beeper := {}
  /-- Whether the run has been ended by the escape key or by a fault. -/
  stopped : Bool := false
  /-- The fault that has ended the run. -/
  fault : Option Fault := none
  /-- The number of frames that have been completed. -/
  frames : Nat := 0

namespace Emulator

/-- The number of instructions in a frame, at least one. -/
def cyclesPerFrame (e : Emulator) : Nat :=
  max 1 (e.settings.instructionsPerSecond.toNat / frameRate)

/-- Whether there is nothing left to run. -/
def isOver (e : Emulator) : Bool := e.stopped || e.machine.hasHalted

/-- Ticks the timers at the end of a frame. -/
def finishFrame (e : Emulator) : Emulator :=
  let (machine, sounding) := e.machine.tick
  { e with
    machine
    frames := e.frames + 1
    beeper := if sounding && e.settings.sound then e.beeper.beep else e.beeper }

/-- Runs one frame. -/
def runFrame (e : Emulator) : Outcome Emulator Failure Unit :=
  match e.machine.cycles e.settings.debug e.cyclesPerFrame with
  | ⟨machine, .ok ()⟩ => .done { e with machine }.finishFrame ()
  | ⟨machine, .error failure⟩ => .fail { e with machine } failure

/-- Runs `n` frames, or fewer if one fails. -/
def runFrames : Nat → Emulator → Outcome Emulator Failure Unit := .repeatTimes runFrame

/-- Takes the note whether the screen has changed. -/
def takeDirty (e : Emulator) : Outcome Emulator Failure Bool :=
  .done { e with machine := { e.machine with screen := e.machine.screen.clean } }
    e.machine.screen.dirty

/-- Runs one frame and remembers the fault if there is one, unless there is nothing left to run.  The
answer tells whether the picture has to be drawn anew. -/
def advance (e : Emulator) : Outcome Emulator Failure Bool :=
  if e.isOver then .done e false
  else
    match e.runFrame with
    | ⟨e, .ok ()⟩ => e.takeDirty
    | ⟨e, .error (.fault fault)⟩ => { e with fault := some fault, stopped := true }.takeDirty
    | ⟨e, .error .outOfBounds⟩ => .fail e .outOfBounds

/-- Runs one frame and draws the picture into a buffer if the screen has changed. -/
def update (state : Emulator × FrameBuffer) : Outcome (Emulator × FrameBuffer) Failure Unit :=
  let (e, buffer) := state
  match e.advance with
  | ⟨e, .ok true⟩ => (e.machine.screen.render buffer).within fun buffer => (e, buffer)
  | ⟨e, .ok false⟩ => .done (e, buffer) ()
  | ⟨e, .error failure⟩ => .fail (e, buffer) failure

/-- Runs `n` frames with their pictures, or fewer if one goes out of bounds. -/
def updates : Nat → Emulator × FrameBuffer → Outcome (Emulator × FrameBuffer) Failure Unit :=
  .repeatTimes update

/-- Takes note of a key of the keyboard that goes down or up.  The escape key ends the run when it
goes down, and a key without a place on the keypad does nothing else. -/
def handleKey (e : Emulator) (key : Key) (down : Bool) : Emulator :=
  if key = .escape ∧ down then { e with stopped := true }
  else
    match key.keypad? with
    | some slot => { e with machine := (e.machine.setKey slot down).state }
    | none => e

end Emulator

end Chip8
