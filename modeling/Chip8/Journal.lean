import Chip8.Instruction.Listing
import Chip8.Key
import Chip8.Machine.Snapshot

/-!
# The journal

What the machine and the frontends have to tell while they run, as events.  The events of an
operation depend on the state that it starts in alone, so they are computed beside the operation
(`Chip8.Journal.Machine` and the modules after it) and no operation depends on them.  Every event has
a level, and a reader keeps those up to a level of its choice.
-/

namespace Chip8

namespace Journal

/-- How much an event matters. -/
inductive Level where
  | error
  | warn
  | info
  | debug
  | trace
deriving DecidableEq

namespace Level

/-- The rank of a level; the events that matter most have the lowest. -/
def rank : Level → Nat
  | error => 0
  | warn => 1
  | info => 2
  | debug => 3
  | trace => 4

/-- The name of a level in a line of the journal. -/
def name : Level → String
  | error => "ERROR"
  | warn => "WARN"
  | info => "INFO"
  | debug => "DEBUG"
  | trace => "TRACE"

end Level

/-- Something worth telling. -/
inductive Event where
  /-- An opcode was decoded for the first time. -/
  | decoded (opcode : Opcode) (instruction : Instruction)
  /-- An instruction is about to be executed. -/
  | executing (pc : UInt16) (opcode : Opcode) (instruction : Instruction)
  /-- An instruction needs the extended display. -/
  | unsupported (instruction : Instruction) (pc : UInt16)
  /-- The program came to its end. -/
  | halted (pc : UInt16) (code : UInt32)
  /-- The machine was reset. -/
  | reset (size : Nat) (origin : UInt16)
  /-- A program was loaded. -/
  | loaded (size : Nat) (origin : UInt16)
  /-- An instruction was looked at before a step. -/
  | inspected (instruction : Instruction) (snapshot : Snapshot)
  /-- The beeper was sounded, for the `count`th time. -/
  | beeped (count : Nat)
  /-- A fault ended the run. -/
  | stopped (pc : UInt16) (fault : Fault)
  /-- A key of the keyboard went down or up. -/
  | key (key : Key) (down : Bool)
  /-- A run begins. -/
  | started (instructionsPerSecond : UInt32) (cyclesPerFrame : Nat)
  /-- The limit of frames was reached. -/
  | limitReached
  /-- A run is over. -/
  | finished (frames : Nat)
deriving DecidableEq

namespace Event

/-- How much the event matters. -/
def level : Event → Level
  | stopped .. => .error
  | unsupported .. => .warn
  | halted .. | loaded .. | inspected .. | started .. | limitReached | finished .. => .info
  | decoded .. | reset .. | key .. => .debug
  | executing .. | beeped .. => .trace

/-- Text filled up with blanks to a width. -/
def padRight (width : Nat) (text : String) : String :=
  String.ofList (text.toList.rightpad width ' ')

/-- The wording of an event. -/
def message : Event → String
  | decoded w i => "decoded " ++ Text.Hex.padded 4 w.toNat ++ " as " ++ i.text
  | executing pc w i =>
    Text.Hex.marked 3 pc.toNat ++ ": " ++ Text.Hex.padded 4 w.toNat ++ " " ++ i.text
  | unsupported i pc =>
    i.text ++ " at " ++ Text.Hex.marked 3 pc.toNat ++ " needs the extended display"
  | halted pc code =>
    "program halted at " ++ Text.Hex.marked 3 pc.toNat ++ " with code " ++ toString code
  | reset size origin =>
    "machine reset, " ++ toString size ++ " byte program at " ++ Text.Hex.marked 3 origin.toNat
  | loaded size origin =>
    "loaded " ++ toString size ++ " byte program at " ++ Text.Hex.marked 3 origin.toNat
  | inspected i snapshot =>
    Text.Hex.padded 3 snapshot.pc.toNat ++ "  " ++ padRight 16 i.text ++ " " ++ snapshot.text
  | beeped count => "beep (" ++ toString count ++ " ticks)"
  | stopped pc fault =>
    "machine stopped at " ++ Text.Hex.marked 3 pc.toNat ++ ": " ++ fault.message
  | key k down => "key event: " ++ k.name ++ " pressed=" ++ Text.flag down
  | started rate cycles =>
    "Octet init, " ++ toString rate ++ " instructions/s (" ++ toString cycles ++ " per frame)"
  | limitReached => "frame limit reached"
  | finished frames => "Octet exit after " ++ toString frames ++ " frames"

/-- The event as a line of the journal. -/
def line (e : Event) : String := e.level.name ++ " " ++ e.message

end Event

/-- The lines of the events that matter at least as much as `level`. -/
def lines (level : Level) (events : List Event) : List String :=
  (events.filter fun e => e.level.rank ≤ level.rank).map Event.line

end Journal

end Chip8
