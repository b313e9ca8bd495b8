import Chip8.CommandLine.Options
import Chip8.Play

/-!
# The command line

What the program does for a command line: an exit code and what it writes.  Files are read through a
function from names to contents, so that everything up to the writing itself is decided here.
-/

namespace Chip8.CommandLine

/-- What a run of the program leaves. -/
structure Report where
  /-- The exit code. -/
  code : UInt32
  /-- What is written to the standard output. -/
  out : String := ""
  /-- What is written to the standard error. -/
  err : String := ""
deriving DecidableEq

/-- The contents of a file, or the reason why it cannot be read. -/
abbrev Contents := Except ReadFailure (Array UInt8)

/-- The version of the program. -/
def versionText : String := "octet 0.1.0\n"

/-- The explanation of the options. -/
def helpText : String := String.join [
  "A CHIP-8 interpreter.\n\n",
  "Keypad layout:\n\n",
  "  CHIP-8      keyboard\n",
  "  1 2 3 C     1 2 3 4\n",
  "  4 5 6 D     Q W E R\n",
  "  7 8 9 E     A S D F\n",
  "  A 0 B F     Z X C V\n\n",
  "Usage: octet [OPTIONS] <PROGRAM>\n\n",
  "Arguments:\n",
  "  <PROGRAM>  File with the CHIP-8 program\n\n",
  "Options:\n",
  "  -s, --sound                  Enable sound\n",
  "  -d, --debug                  Log every instruction with the machine state\n",
  "  -c, --compatibility          Make FX55/FX65 advance I like the COSMAC VIP\n",
  "  -f, --frequency <FREQUENCY>  Instructions executed per second [default: 500]\n",
  "      --frames <FRAMES>        Stop after this many frames\n",
  "      --headless               Run without input or a live screen, printing the final screen\n",
  "      --terminal               Play in the terminal even when SDL2 support is built in\n",
  "      --raw-bcd                Store raw decimal digits with FX33 instead of font addresses\n",
  "      --shift-vy               Shift VY into VX with 8XY6/8XYE instead of shifting VX in place\n",
  "  -h, --help                   Print help\n",
  "  -V, --version                Print version\n"]

namespace UsageError

/-- The wording of a usage error. -/
def message : UsageError → String
  | unknown argument => "unexpected argument '" ++ argument ++ "' found"
  | repeated argument => "the argument '" ++ argument ++ "' cannot be used multiple times"
  | unexpectedValue argument => "unexpected value in '" ++ argument ++ "'"
  | missingValue argument => "a value is required for '" ++ argument ++ "' but none was supplied"
  | invalidValue value => "invalid value '" ++ value ++ "'"
  | extraArgument argument => "unexpected argument '" ++ argument ++ "' found"
  | conflict => "the argument '--headless' cannot be used with '--terminal'"
  | missingProgram => "the following required arguments were not provided:\n  <PROGRAM>"

end UsageError

/-- The text that tells of an error: the outermost message and, below it, its causes.  Several causes
are numbered. -/
def errorText (chain : List String) : String :=
  match chain with
  | [] => "Error: \n"
  | [message] => "Error: " ++ message ++ "\n"
  | [message, cause] => "Error: " ++ message ++ "\n\nCaused by:\n    " ++ cause ++ "\n"
  | message :: causes =>
    "Error: " ++ message ++ "\n\nCaused by:\n" ++
      String.join (causes.zipIdx.map fun (cause, place) =>
        "    " ++ toString place ++ ": " ++ cause ++ "\n")

/-- The report on an error, after what has been written to the standard output. -/
def failed (e : Play.Error) (out : String) : Report :=
  { code := 1, out, err := errorText e.chain }

/-- The report on a usage error. -/
def misused (e : UsageError) : Report :=
  { code := 2, err := "error: " ++ e.message ++ "\n" }

namespace Options

/-- Whether a switch is on. -/
def has (o : Options) (switch : Switch) : Bool := o.switches.contains switch

/-- The configuration of the machine, whose random bytes have no seed. -/
def config (o : Options) : Config where
  advanceIndex := o.has .compatibility
  decimals := if o.has .rawBcd then .rawDigits else .fontAddress
  shiftSource := if o.has .shiftVy then .vy else .vx

/-- The settings of the emulator. -/
def settings (o : Options) : Emulator.Settings where
  instructionsPerSecond := o.frequency
  sound := o.has .sound
  debug := o.has .debug

end Options

/-- Plays the program in a file.  A run without a display writes the last screen, also when a fault
has stopped it.  Without a terminal no other run is possible. -/
def play (o : Options) (file : Contents) (entropy : Random.Key) : Report :=
  match file with
  | .error failure => failed (.unreadable o.program failure) ""
  | .ok program =>
    if o.has .headless then
      let played := Play.headless o.config entropy o.settings o.frames program
      let out := match played.emulator with
        | some e => e.machine.screen.text
        | none => ""
      match played.code with
      | .ok code => { code, out }
      | .error e => failed e out
    else
      match Play.emulator o.config entropy o.settings program with
      | .error e => failed e ""
      | .ok _ => failed .noTerminal ""

/-- Does what a command line asks for, reading files through `read`. -/
def run (arguments : List String) (read : String → Contents) (entropy : Random.Key) : Report :=
  match parse arguments with
  | .error e => misused e
  | .ok .help => { code := 0, out := helpText }
  | .ok .version => { code := 0, out := versionText }
  | .ok (.play o) => play o (read o.program) entropy

end Chip8.CommandLine
