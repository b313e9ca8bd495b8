import Chip8.FileTree
import Chip8.Journal.Emulator
import Chip8.Terminal

/-!
# Playing a program

From a configuration and a program to the exit code: a machine is made, the program is loaded and
run, and the run is judged.  An error is told from the outside in, first what was being done and then
what went wrong.
-/

namespace Chip8.Play

/-- Why playing a program failed. -/
inductive Error where
  /-- No machine can be made. -/
  | invalidConfig (fault : Fault)
  /-- The program cannot be loaded. -/
  | notLoaded (fault : Fault)
  /-- The program was stopped by a fault. -/
  | stopped (pc : UInt16) (fault : Fault)
  /-- The run was interrupted because the keys could not be polled. -/
  | input (message : String)
  /-- The machine went out of bounds. -/
  | outOfBounds
  /-- There is no terminal to run in. -/
  | noTerminal
  /-- The file with the program cannot be read. -/
  | unreadable (path : String) (failure : ReadFailure)
deriving DecidableEq

namespace Error

/-- What is told of an error, from the outside in. -/
def chain : Error → List String
  | invalidConfig fault => ["invalid machine configuration", fault.message]
  | notLoaded fault => ["failed to load program", fault.message]
  | stopped pc fault =>
    ["program stopped at " ++ Text.Hex.marked 3 pc.toNat, fault.message]
  | input message => [message]
  | outOfBounds => ["the machine went out of bounds"]
  | noTerminal => ["terminal frontend needs a TTY, try --headless"]
  | unreadable path failure => ["failed to read " ++ path, failure.message]

/-- The fault of the machine behind the error, if there is one. -/
def fault? : Error → Option Fault
  | invalidConfig fault | notLoaded fault | stopped _ fault => some fault
  | _ => none

/-- The error of an interruption. -/
def ofInterruption : Terminal.Interruption → Error
  | .input message => input message
  | .outOfBounds => outOfBounds

end Error

/-- A machine with its program. -/
def machine (config : Config) (entropy : Random.Key) (program : Array UInt8) :
    Except Error Machine :=
  match Machine.new config entropy with
  | .error fault => .error (.invalidConfig fault)
  | .ok m =>
    match m.load program with
    | ⟨m, .ok ()⟩ => .ok m
    | ⟨_, .error (.fault fault)⟩ => .error (.notLoaded fault)
    | ⟨_, .error .outOfBounds⟩ => .error .outOfBounds

/-- An emulator with its program and a beeper that goes into the journal. -/
def emulator (config : Config) (entropy : Random.Key) (settings : Emulator.Settings)
    (program : Array UInt8) : Except Error Emulator :=
  (machine config entropy program).map fun machine =>
    { machine, settings, beeper := { journals := true } }

/-- The exit code of a run that is over, 0 if it was cut short. -/
def verdict (e : Emulator) : Except Error UInt32 :=
  match e.fault with
  | some fault => .error (.stopped e.machine.pc fault)
  | none => .ok (e.machine.exitCode.getD 0)

/-- What a run without a display leaves: the emulator, if one could be made, and the exit code. -/
structure Played where
  /-- The emulator after the run. -/
  emulator : Option Emulator
  /-- The exit code or why there is none. -/
  code : Except Error UInt32

/-- Plays a program without a display. -/
def headless (config : Config) (entropy : Random.Key) (settings : Emulator.Settings)
    (limit : Option Nat) (program : Array UInt8) : Played :=
  match emulator config entropy settings program with
  | .error e => { emulator := none, code := .error e }
  | .ok e =>
    match Headless.run limit e with
    | ⟨e, .ok ()⟩ => { emulator := some e, code := verdict e }
    | ⟨_, .error _⟩ => { emulator := none, code := .error .outOfBounds }

/-- The events of making a machine and loading its program. -/
def machineEvents (config : Config) (entropy : Random.Key) (program : Array UInt8) :
    List Journal.Event :=
  Machine.newEvents config ++
    match Machine.new config entropy with
    | .ok m => m.loadEvents program
    | .error _ => []

/-- The events of playing a program without a display. -/
def headlessEvents (config : Config) (entropy : Random.Key) (settings : Emulator.Settings)
    (limit : Option Nat) (program : Array UInt8) : List Journal.Event :=
  machineEvents config entropy program ++
    match emulator config entropy settings program with
    | .ok e => Headless.runEvents limit e
    | .error _ => []

end Chip8.Play
