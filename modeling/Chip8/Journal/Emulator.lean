import Chip8.Headless
import Chip8.Journal.Machine

/-!
# Events of the emulator

The events of the frames that an emulator runs, of the keys that it is told of and of a whole run
without a display.
-/

namespace Chip8

open Journal (Event)

namespace Emulator

/-- The events at the beginning of a run. -/
def startEvents (e : Emulator) : List Event :=
  [.started e.settings.instructionsPerSecond e.cyclesPerFrame]

/-- The events at the end of a run. -/
def finishEvents (e : Emulator) : List Event := [.finished e.frames]

/-- The events of the tick that ends a frame. -/
def beepEvents (e : Emulator) : List Event :=
  if e.machine.tick.2 && e.settings.sound && e.beeper.journals then [.beeped (e.beeper.beeps + 1)]
  else []

/-- The events of a frame. -/
def frameEvents (e : Emulator) : List Event :=
  e.machine.cyclesEvents e.settings.debug e.cyclesPerFrame ++
    match e.machine.cycles e.settings.debug e.cyclesPerFrame with
    | ⟨machine, .ok ()⟩ => { e with machine }.beepEvents
    | ⟨_, .error _⟩ => []

/-- The events of frames. -/
def framesEvents (n : Nat) (e : Emulator) : List Event :=
  (Outcome.visited (fun _ => false) runFrame n e).flatMap frameEvents

/-- The events of a frame whose fault is remembered. -/
def advanceEvents (e : Emulator) : List Event :=
  if e.isOver then []
  else
    e.frameEvents ++
      match e.runFrame with
      | ⟨e, .error (.fault fault)⟩ => [.stopped e.machine.pc fault]
      | _ => []

/-- The events of frames with their pictures. -/
def updatesEvents (n : Nat) (state : Emulator × FrameBuffer) : List Event :=
  (Outcome.visited (fun _ => false) update n state).flatMap fun (e, _) => e.advanceEvents

/-- The events of a key. -/
def keyEvents (key : Key) (down : Bool) : List Event := [.key key down]

end Emulator

namespace Headless

/-- The events at the end of a run that went on until it had to stop. -/
def endEvents (e : Emulator) : List Event :=
  (if e.isOver then [] else [.limitReached]) ++ e.finishEvents

/-- The events of a run. -/
def runEvents (limit : Option Nat) (e : Emulator) : List Event :=
  e.startEvents ++
    (Outcome.visited (·.1.isOver) Emulator.update (framesLeft limit e) (e, .blank)).flatMap
      (·.1.advanceEvents) ++
    match run limit e with
    | ⟨e, .ok ()⟩ => endEvents e
    | ⟨_, .error _⟩ => []

end Headless

end Chip8
