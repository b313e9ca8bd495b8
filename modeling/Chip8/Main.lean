import Chip8.CommandLine

/-!
# The program

Reads the file that the command line names, and writes what `Chip8.CommandLine` decides.
-/

namespace Chip8.Main

/-- The cause that the system gives for a failure to read a file.  A folder can be opened and then not
read; a path that goes on behind a file cannot be opened. -/
def failureOf : IO.Error → ReadFailure
  | .noFileOrDirectory .. => .missing
  | .permissionDenied .. => .denied
  | .inappropriateType (some _) .. => .notFolder
  | .inappropriateType none .. => .folder
  | .invalidArgument (some _) .. => .nameTooLong
  | e => .other (toString e)

/-- The contents of a file. -/
def contents (path : String) : IO CommandLine.Contents := do
  try
    return .ok (← IO.FS.readBinFile path).data
  catch e =>
    return .error (failureOf e)

/-- A key that differs from run to run. -/
def freshKey : IO Random.Key := do
  let bytes ← IO.getRandomBytes 32
  let byte (place : Nat) : UInt32 := (bytes.data.getD place 0).toUInt32
  return .ofFn fun place =>
    byte (4 * place) ||| byte (4 * place + 1) <<< 8 ||| byte (4 * place + 2) <<< 16 |||
      byte (4 * place + 3) <<< 24

end Chip8.Main

/-- Runs the program and answers its exit code. -/
def main (arguments : List String) : IO UInt32 := do
  let entropy ← Chip8.Main.freshKey
  let file ← match Chip8.CommandLine.parse arguments with
    | .ok (.play options) => Chip8.Main.contents options.program
    | _ => pure (.ok #[])
  let report := Chip8.CommandLine.run arguments (fun _ => file) entropy
  (← IO.getStdout).putStr report.out
  (← IO.getStderr).putStr report.err
  return report.code
