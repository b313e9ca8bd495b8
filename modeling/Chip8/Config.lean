import Chip8.Fault
import Chip8.Font
import Chip8.Text.Record

/-!
# Configurations of the machine

The sizes and the variants of behaviour that a machine is made with.  A configuration describes a
machine if its memory can be addressed with sixteen bits and programs are loaded between the font
and the end of memory.
-/

namespace Chip8

/-- What the instruction that stores decimal digits writes for a digit. -/
inductive DecimalEncoding where
  /-- The address of the digit's glyph. -/
  | fontAddress
  /-- The digit itself. -/
  | rawDigits
deriving DecidableEq

/-- Which register the shift instructions take their operand from. -/
inductive ShiftSource where
  /-- The register that is also the target. -/
  | vx
  /-- The second register. -/
  | vy
deriving DecidableEq

/-- What a machine is made with. -/
structure Config where
  /-- The number of bytes of memory. -/
  memorySize : Nat := 4096
  /-- Whether a block transfer moves `I` behind the block. -/
  advanceIndex : Bool := false
  /-- Where programs are loaded. -/
  loadAddress : UInt16 := 0x200
  /-- How decimal digits are stored. -/
  decimals : DecimalEncoding := .fontAddress
  /-- What the shift instructions shift. -/
  shiftSource : ShiftSource := .vx
  /-- The seed of the random bytes, if the host has chosen one. -/
  seed : Option UInt64 := none
deriving DecidableEq

/-- Why a configuration describes no machine. -/
inductive ConfigFlaw where
  /-- Sixteen bits do not reach all of the memory. -/
  | memoryTooLarge (size : Nat)
  /-- The font does not fit into the memory. -/
  | memoryTooSmall (size : Nat)
  /-- Programs would be loaded into the font or behind the end of memory. -/
  | badLoadAddress (address : UInt16)
deriving DecidableEq

/-- The wording of a flaw. -/
def ConfigFlaw.message : ConfigFlaw → String
  | memoryTooLarge size => "memory size " ++ toString size ++ " exceeds the 16-bit address space"
  | memoryTooSmall size =>
    "memory size " ++ toString size ++ " cannot hold the " ++ toString Font.size ++
      "-byte font table"
  | badLoadAddress address =>
    "load address " ++ Text.Hex.marked 3 address.toNat ++
      " must lie between the font table and the end of memory"

namespace Config

/-- The first flaw of a configuration, if it has one. -/
def flaw? (c : Config) : Option ConfigFlaw :=
  if c.memorySize > 0x10000 then some (.memoryTooLarge c.memorySize)
  else if c.memorySize < Font.size then some (.memoryTooSmall c.memorySize)
  else if c.loadAddress.toNat < Font.size ∨ c.loadAddress.toNat ≥ c.memorySize then
    some (.badLoadAddress c.loadAddress)
  else none

/-- Accepts the configurations that describe a machine. -/
def validate (c : Config) : Except Fault Unit :=
  match c.flaw? with
  | some flaw => .error (.invalidConfig flaw.message)
  | none => .ok ()

/-- The configuration as a record. -/
def record (c : Config) : String :=
  Text.record "MachineConfig" [
    ("memory_size", toString c.memorySize),
    ("compatibility_load_store", Text.flag c.advanceIndex),
    ("load_address", toString c.loadAddress),
    ("bcd_encoding", match c.decimals with
      | .fontAddress => "FontAddress"
      | .rawDigits => "RawDigits"),
    ("shift_source", match c.shiftSource with
      | .vx => "Vx"
      | .vy => "Vy"),
    ("rng_seed", match c.seed with
      | none => "None"
      | some seed => "Some(" ++ toString seed ++ ")")]

end Config

end Chip8
