/-!
# Command-line options

A command line names one file with a program and says how to play it.  Options may stand before and
behind the file, switches may be bundled behind one dash, and `--` ends the options.  Every option may
be given once.  Arguments are read from left to right, so the first thing that is wrong, or the first
request for help, decides; what only the whole line shows is judged at its end.
-/

namespace Chip8.CommandLine

/-- An option without a value. -/
inductive Switch where
  /-- Sounds the beeper. -/
  | sound
  /-- Puts every instruction into the journal. -/
  | debug
  /-- Moves `I` behind the block of a block transfer. -/
  | compatibility
  /-- Runs without input or a live screen. -/
  | headless
  /-- Runs in the terminal. -/
  | terminal
  /-- Stores decimal digits as they are. -/
  | rawBcd
  /-- Shifts the second register into the first. -/
  | shiftVy
deriving DecidableEq

/-- An option with a value. -/
inductive Setting where
  /-- The number of instructions in a second. -/
  | frequency
  /-- The number of frames after which to stop. -/
  | frames
deriving DecidableEq

/-- What an option stands for. -/
inductive Flag where
  /-- An option without a value. -/
  | switch (switch : Switch)
  /-- An option with a value. -/
  | setting (setting : Setting)
  /-- The request for help. -/
  | help
  /-- The request for the version. -/
  | version
deriving DecidableEq

/-- The option with a long name. -/
def Flag.ofName? : String → Option Flag
  | "sound" => some (.switch .sound)
  | "debug" => some (.switch .debug)
  | "compatibility" => some (.switch .compatibility)
  | "headless" => some (.switch .headless)
  | "terminal" => some (.switch .terminal)
  | "raw-bcd" => some (.switch .rawBcd)
  | "shift-vy" => some (.switch .shiftVy)
  | "frequency" => some (.setting .frequency)
  | "frames" => some (.setting .frames)
  | "help" => some .help
  | "version" => some .version
  | _ => none

/-- The option with a letter. -/
def Flag.ofLetter? : Char → Option Flag
  | 's' => some (.switch .sound)
  | 'd' => some (.switch .debug)
  | 'c' => some (.switch .compatibility)
  | 'f' => some (.setting .frequency)
  | 'h' => some .help
  | 'V' => some .version
  | _ => none

/-- How a program is to be played. -/
structure Options where
  /-- The file with the program. -/
  program : String
  /-- The switches that are on. -/
  switches : List Switch
  /-- The number of instructions in a second. -/
  frequency : UInt32
  /-- The number of frames after which to stop, if there is one. -/
  frames : Option Nat
deriving DecidableEq

/-- What a command line asks for. -/
inductive Request where
  /-- To play a program. -/
  | play (options : Options)
  /-- To explain the options. -/
  | help
  /-- To name the version. -/
  | version
deriving DecidableEq

/-- What is wrong with a command line. -/
inductive UsageError where
  /-- There is no such option. -/
  | unknown (argument : String)
  /-- The option was given before. -/
  | repeated (argument : String)
  /-- The option takes no value. -/
  | unexpectedValue (argument : String)
  /-- The option needs a value. -/
  | missingValue (argument : String)
  /-- The value is not a number in the range of the option. -/
  | invalidValue (value : String)
  /-- A second file is named. -/
  | extraArgument (argument : String)
  /-- The two frontends exclude each other. -/
  | conflict
  /-- No file is named. -/
  | missingProgram
deriving DecidableEq

/-- Why reading arguments stopped before their end. -/
inductive Stop where
  /-- Something is wrong. -/
  | usage (error : UsageError)
  /-- Something else than playing a program is asked for. -/
  | request (request : Request)

/-- What the arguments up to some point have said. -/
structure Seen where
  /-- The file with the program. -/
  program : Option String := none
  /-- The switches that are on. -/
  switches : List Switch := []
  /-- The number of instructions in a second. -/
  frequency : Option Nat := none
  /-- The number of frames after which to stop. -/
  frames : Option Nat := none

/-- The number that decimal digits write, of which there must be one at least. -/
def readDigits (digits : List Char) : Option Nat :=
  if digits.isEmpty ∨ ¬digits.all Char.isDigit then none
  else some (digits.foldl (fun n c => 10 * n + (c.toNat - '0'.toNat)) 0)

/-- The number that digits write behind an optional sign; `signed` says whether a minus sign may
stand there, of which only zero makes a number. -/
def readNumber (signed : Bool) (text : String) : Option Nat :=
  match text.toList with
  | '+' :: digits => readDigits digits
  | '-' :: digits => if signed then (readDigits digits).filter (· = 0) else none
  | digits => readDigits digits

namespace Setting

/-- The value of a setting, if it is one that the setting takes. -/
def read (setting : Setting) (text : String) : Option Nat :=
  match setting with
  | frequency => (readNumber true text).filter (· < UInt32.size)
  | frames => (readNumber false text).filter (· < UInt64.size)

end Setting

namespace Seen

/-- Turns a switch on. -/
def addSwitch (seen : Seen) (argument : String) (switch : Switch) : Except Stop Seen :=
  if switch ∈ seen.switches then .error (.usage (.repeated argument))
  else .ok { seen with switches := seen.switches ++ [switch] }

/-- Gives a setting its value. -/
def addSetting (seen : Seen) (argument : String) (setting : Setting) (text : String) :
    Except Stop Seen :=
  let old := match setting with
    | .frequency => seen.frequency
    | .frames => seen.frames
  if old.isSome then .error (.usage (.repeated argument))
  else
    match setting.read text, setting with
    | none, _ => .error (.usage (.invalidValue text))
    | some value, .frequency => .ok { seen with frequency := some value }
    | some value, .frames => .ok { seen with frames := some value }

/-- Takes an argument that is not an option. -/
def addProgram (seen : Seen) (argument : String) : Except Stop Seen :=
  if seen.program.isSome then .error (.usage (.extraArgument argument))
  else if argument.isEmpty then .error (.usage (.missingValue "<PROGRAM>"))
  else .ok { seen with program := some argument }

end Seen

/-- What reading one argument leads to. -/
inductive Reading where
  /-- The argument is complete. -/
  | complete (seen : Seen)
  /-- The next argument is the value of a setting. -/
  | needsValue (seen : Seen) (setting : Setting)

/-- Reads an argument that begins with two dashes. -/
def readLong (seen : Seen) (argument : String) (body : List Char) : Except Stop Reading := do
  let name := String.ofList (body.takeWhile (· ≠ '='))
  let value? := match body.dropWhile (· ≠ '=') with
    | [] => none
    | _ :: value => some (String.ofList value)
  match Flag.ofName? name, value? with
  | none, _ => throw (.usage (.unknown argument))
  | some (.switch switch), none => return .complete (← seen.addSwitch argument switch)
  | some (.setting setting), none => return .needsValue seen setting
  | some (.setting setting), some value =>
    return .complete (← seen.addSetting argument setting value)
  | some .help, none => throw (.request .help)
  | some .version, none => throw (.request .version)
  | some _, some _ => throw (.usage (.unexpectedValue argument))

/-- Reads the letters of an argument that begins with one dash.  The rest behind the letter of a
setting is its value, from which a leading `=` is dropped. -/
def readLetters (argument : String) : Seen → List Char → Except Stop Reading
  | seen, [] => return .complete seen
  | seen, letter :: rest =>
    match Flag.ofLetter? letter with
    | none => throw (.usage (.unknown argument))
    | some .help => throw (.request .help)
    | some .version => throw (.request .version)
    | some (.switch switch) => do readLetters argument (← seen.addSwitch argument switch) rest
    | some (.setting setting) =>
      match rest with
      | [] => return .needsValue seen setting
      | '=' :: value => do
        return .complete (← seen.addSetting argument setting (String.ofList value))
      | value => do return .complete (← seen.addSetting argument setting (String.ofList value))

/-- Reads one argument. -/
def readArgument (seen : Seen) (argument : String) : Except Stop Reading :=
  match argument.toList with
  | '-' :: '-' :: body => readLong seen argument body
  | '-' :: letter :: rest => readLetters argument seen (letter :: rest)
  | _ => (seen.addProgram argument).map .complete

/-- Reads arguments from left to right. -/
def readArguments : Seen → List String → Except Stop Seen
  | seen, [] => return seen
  | seen, "--" :: rest => rest.foldlM Seen.addProgram seen
  | seen, argument :: rest => do
    match ← readArgument seen argument with
    | .complete seen => readArguments seen rest
    | .needsValue seen setting =>
      match rest with
      | [] => throw (.usage (.missingValue argument))
      | value :: rest =>
        if value.startsWith "-" ∧ value ≠ "-" then throw (.usage (.missingValue argument))
        else readArguments (← seen.addSetting argument setting value) rest

/-- The number of instructions in a second if nothing else is asked for. -/
def defaultFrequency : Nat := 500

/-- Judges what the whole line has said. -/
def Seen.options (seen : Seen) : Except UsageError Options :=
  if .headless ∈ seen.switches ∧ .terminal ∈ seen.switches then .error .conflict
  else
    match seen.program with
    | none => .error .missingProgram
    | some program =>
      .ok {
        program
        switches := seen.switches
        frequency := (seen.frequency.getD defaultFrequency).toUInt32
        frames := seen.frames }

/-- Reads a command line. -/
def parse (arguments : List String) : Except UsageError Request :=
  match readArguments {} arguments with
  | .error (.usage error) => .error error
  | .error (.request request) => .ok request
  | .ok seen => seen.options.map .play

end Chip8.CommandLine
