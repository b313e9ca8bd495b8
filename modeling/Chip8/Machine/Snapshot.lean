import Chip8.Machine
import Chip8.Text.Hex

/-!
# Snapshots

A snapshot is the part of a machine that fits on a line: the registers, the counters, the timers and
the return addresses.  `Snapshot.text` is that line.  It shows everything in the snapshot but the
exit code.
-/

namespace Chip8

/-- The registers, counters and timers of a machine. -/
structure Snapshot where
  /-- The registers. -/
  v : Registers
  /-- The address register. -/
  i : UInt16
  /-- The program counter. -/
  pc : UInt16
  /-- The delay timer. -/
  delay : UInt8
  /-- The sound timer. -/
  sound : UInt8
  /-- The return addresses from the outermost call to the innermost. -/
  stack : List UInt16
  /-- Whether the machine waits for a key. -/
  blocked : Bool
  /-- The exit code, if the machine has halted. -/
  exitCode : Option UInt32
deriving DecidableEq

namespace Snapshot

/-- Numbers in hexadecimal with at least `width` digits each, in brackets. -/
def numbersText (width : Nat) (numbers : List Nat) : String :=
  "[" ++ " ".intercalate (numbers.map (Text.Hex.padded width)) ++ "]"

/-- The snapshot as a line of text. -/
def text (s : Snapshot) : String :=
  "V: " ++ numbersText 2 (s.v.toList.map UInt8.toNat) ++
  " PC: " ++ Text.Hex.padded 3 s.pc.toNat ++
  " I: " ++ Text.Hex.padded 3 s.i.toNat ++
  " DT: " ++ Text.Hex.padded 2 s.delay.toNat ++
  " ST: " ++ Text.Hex.padded 2 s.sound.toNat ++
  " Stack: " ++ numbersText 3 (s.stack.map UInt16.toNat) ++
  (if s.blocked then " (waiting for key)" else "")

end Snapshot

/-- The snapshot of a machine. -/
def Machine.snapshot (m : Machine) : Snapshot where
  v := m.v
  i := m.i
  pc := m.pc
  delay := m.delay.count
  sound := m.sound.count
  stack := m.stack.toList
  blocked := m.blocked
  exitCode := m.exitCode

end Chip8
