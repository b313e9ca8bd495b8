import Chip8.Opcode
import Chip8.Text.Quoted

/-!
# Faults

Everything that the machine and its parts can refuse, as causes.  `Fault.message` holds the wording
and `Fault.isDecode` tells the faults that arise while bytes are turned into an instruction from
those that arise while one is run.  Halting is not a fault.
-/

namespace Chip8

/-- Why a request was refused. -/
inductive Fault where
  /-- No instruction has this opcode. -/
  | unknownOpcode (opcode : Opcode)
  /-- Several formats of an instruction table accept this opcode. -/
  | ambiguousOpcode (opcode : Opcode) (formats : List String)
  /-- The text is not a format. -/
  | malformedFormat (format reason : String)
  /-- The opcode differs from the format in a fixed nibble. -/
  | formatMismatch (opcode : Opcode) (format : String)
  /-- The format yields fewer operands than the instruction has. -/
  | missingOperand (format : String)
  /-- The named operation needs an address on the call stack. -/
  | stackUnderflow (operation : String)
  /-- A timer holds a byte. -/
  | timerOutOfRange (value : UInt32)
  /-- A pixel is written with a bit. -/
  | invalidPixel (value : UInt8)
  /-- The keypad has sixteen keys. -/
  | invalidKey (key : UInt8)
  /-- The program would run over the end of memory. -/
  | programTooLarge (size : Nat) (origin : UInt16) (memorySize : Nat)
  /-- The configuration describes no machine. -/
  | invalidConfig (reason : String)
  /-- A step was asked for while an instruction is being executed. -/
  | reentrant
  /-- The instruction belongs to the extended display, which is decoded but not run. -/
  | notImplemented (mnemonic : String)
deriving DecidableEq

namespace Fault

/-- The wording of a fault. -/
def message : Fault → String
  | unknownOpcode w => "unknown instruction " ++ w.bytesText
  | ambiguousOpcode w formats =>
    "opcode " ++ w.bytesText ++ " matches several formats: " ++ Text.Quoted.list formats
  | malformedFormat format reason =>
    "malformed opcode format " ++ Text.Quoted.string format ++ ": " ++ reason
  | formatMismatch w format =>
    "opcode " ++ w.bytesText ++ " does not correspond to format " ++ Text.Quoted.string format
  | missingOperand format =>
    "format " ++ Text.Quoted.string format ++ " does not supply the operands its instruction needs"
  | stackUnderflow operation => operation ++ " on empty call stack"
  | timerOutOfRange value => "timer value " ++ toString value ++ " is outside [0, 255]"
  | invalidPixel value => "pixel value " ++ toString value ++ " must be 0 or 1"
  | invalidKey key => "key " ++ toString key ++ " is outside the 16-key pad"
  | programTooLarge size origin memorySize =>
    "program of " ++ toString size ++ " bytes at " ++ Text.Hex.marked 3 origin.toNat ++
      " does not fit in " ++ toString memorySize ++ " bytes of memory"
  | invalidConfig reason => "invalid machine configuration: " ++ reason
  | reentrant => "step() called while an instruction is executing"
  | notImplemented mnemonic => "instruction " ++ mnemonic ++ " is not implemented"

/-- Whether the fault comes from turning bytes into an instruction. -/
def isDecode : Fault → Bool
  | unknownOpcode .. | ambiguousOpcode .. | malformedFormat .. | formatMismatch ..
  | missingOperand .. => true
  | _ => false

end Fault

end Chip8
