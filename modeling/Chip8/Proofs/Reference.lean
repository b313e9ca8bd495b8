import Chip8.Config
import Chip8.Keypad
import Chip8.Random
import Chip8.Screen
import Mathlib.Algebra.Group.Nat.Defs

/-!
# A reference interpreter

The machine once more, as small as it can be: bytes, addresses and registers are natural numbers,
arithmetic is reduced modulo 256 or 65536 where it is done, and an instruction is found by taking the
opcode apart with division and remainder and branching on its nibbles.  There are no formats, no
table of instructions, no operands that have to be routed and no decoder that remembers.

`Reference.State.start` is the state in which a program starts, `Reference.step` makes one step, and
`Reference.after` and `Reference.answers` make several.
-/

namespace Chip8.Reference

/-- The state of the reference interpreter. -/
structure State where
  /-- The number of bytes of memory. -/
  size : Nat
  /-- Whether a block transfer moves `I` behind the block. -/
  advanceIndex : Bool
  /-- Whether decimal digits are stored as they are and not as addresses of glyphs. -/
  rawDigits : Bool
  /-- Whether a shift takes its operand from the second register. -/
  shiftsVy : Bool
  /-- The bytes of memory by their addresses. -/
  memory : Nat → Nat
  /-- The registers by their numbers. -/
  v : Nat → Nat
  /-- The address register `I`. -/
  i : Nat
  /-- The program counter. -/
  pc : Nat
  /-- The return addresses, the innermost call first. -/
  stack : List Nat
  /-- The number of rows of the screen. -/
  height : Nat
  /-- The number of columns of the screen. -/
  width : Nat
  /-- Whether the pixel at a row and a column is lit. -/
  lit : Nat → Nat → Bool
  /-- Whether a key is down. -/
  key : Nat → Bool
  /-- The delay timer. -/
  delay : Nat
  /-- The sound timer. -/
  sound : Nat
  /-- Whether the interpreter waits for a key. -/
  blocked : Bool
  /-- The exit code, if there is one. -/
  exit : Option Nat
  /-- The random bytes to come. -/
  stream : Nat → Nat

namespace State

/-- The state in which a program starts: the font stands at the start of memory and the program at
the load address, everything else is zero or dark. -/
def start (config : Config) (program : Array UInt8) (keypad : Keypad) (random : Random) :
    State where
  size := config.memorySize
  advanceIndex := config.advanceIndex
  rawDigits := config.decimals = .rawDigits
  shiftsVy := config.shiftSource = .vy
  memory := fun address =>
    if config.loadAddress.toNat ≤ address ∧ address < config.loadAddress.toNat + program.size then
      (program.getD (address - config.loadAddress.toNat) 0).toNat
    else (Font.bytes.getD address 0).toNat
  v := fun _ => 0
  i := 0
  pc := config.loadAddress.toNat
  stack := []
  height := 32
  width := 64
  lit := fun _ _ => false
  key := fun key => keypad.keys.toArray.getD key false
  delay := 0
  sound := 0
  blocked := false
  exit := none
  stream := fun index => (Random.byteAt random.key (random.drawn + index)).toNat

/-! ## Registers, memory and the program counter -/

/-- Sets register `x`. -/
def set (s : State) (x value : Nat) : State :=
  { s with v := fun r => if r = x then value else s.v r }

/-- Sets register `x` and then the flag, register 15, to 0 or 1. -/
def setWithFlag (s : State) (x value : Nat) (flag : Bool) : State :=
  (s.set x value).set 15 flag.toNat

/-- Writes a byte; addresses wrap around the end of memory. -/
def write (s : State) (address value : Nat) : State :=
  { s with memory := fun place => if place = address % s.size then value else s.memory place }

/-- Writes bytes one after the other. -/
def writeAll (s : State) (address : Nat) : List Nat → State
  | [] => s
  | value :: rest => (s.write address value).writeAll (address + 1) rest

/-- Moves the program counter on by `distance`. -/
def forward (s : State) (distance : Nat) : State := { s with pc := (s.pc + distance) % 65536 }

/-- Goes on with the next instruction, unless the interpreter waits for a key. -/
def next (s : State) : State := if s.blocked then s else s.forward 2

/-- Goes on with the instruction after the next one if the condition holds, else with the next. -/
def skipIf (s : State) (condition : Bool) : State := s.forward (if condition then 4 else 2)

/-- Moves `I` behind the block of `x + 1` bytes that was transferred, if the machine is made so. -/
def passBlock (s : State) (x : Nat) : State :=
  if s.advanceIndex then { s with i := (s.i + x + 1) % 65536 } else s

/-! ## The screen -/

/-- Toggles the pixel at a row and a column, which wrap around the edges. -/
def toggle (s : State) (point : Nat × Nat) : State :=
  { s with
    lit := fun row column =>
      if row = point.1 % s.height ∧ column = point.2 % s.width then !s.lit row column
      else s.lit row column }

/-- Toggles pixels one after the other.  The answer tells whether one of them was lit before it was
toggled, or `collided` if one was so before. -/
def toggleAll (s : State) (collided : Bool) : List (Nat × Nat) → State × Bool
  | [] => (s, collided)
  | point :: rest =>
    (s.toggle point).toggleAll (collided || s.lit (point.1 % s.height) (point.2 % s.width)) rest

/-- The columns of the bits that are set in a byte, the most significant bit in column 0. -/
def setBits (byte : Nat) : List Nat :=
  (List.range 8).filter fun column => byte / 2 ^ (7 - column) % 2 = 1

/-- The points of the sprite of `n` bytes at `I`, whose upper left corner is at row `y` and column
`x`. -/
def points (s : State) (y x n : Nat) : List (Nat × Nat) :=
  (List.range n).flatMap fun row =>
    (setBits (s.memory ((s.i + row) % s.size))).map fun column => (y + row, x + column)

/-! ## Instructions -/

/-- Opcodes that begin with the nibble 0. -/
def runSystem (s : State) (w : Nat) : Except Fault State :=
  if w = 0x00E0 then .ok { s with lit := fun _ _ => false }.next
  else if w = 0x00EE then
    match s.stack with
    | [] => .error (.stackUnderflow "pop")
    | address :: rest => .ok { s with pc := address, stack := rest }
  else if w / 16 = 0x00C then .error (.notImplemented "SCD")
  else if w = 0x00FB then .error (.notImplemented "SCR")
  else if w = 0x00FC then .error (.notImplemented "SCL")
  else if w = 0x00FE then .error (.notImplemented "LOW")
  else if w = 0x00FF then .error (.notImplemented "HIGH")
  else .error (.unknownOpcode w.toUInt16)

/-- Opcodes that begin with the nibble 8: operations on two registers. -/
def runArithmetic (s : State) (w x y n : Nat) : Except Fault State :=
  let shifted := if s.shiftsVy then s.v y else s.v x
  match n with
  | 0x0 => .ok (s.set x (s.v y)).next
  | 0x1 => .ok (s.set x (s.v x ||| s.v y)).next
  | 0x2 => .ok (s.set x (s.v x &&& s.v y)).next
  | 0x3 => .ok (s.set x (s.v x ^^^ s.v y)).next
  | 0x4 => .ok (s.setWithFlag x ((s.v x + s.v y) % 256) (s.v x + s.v y > 255)).next
  | 0x5 => .ok (s.setWithFlag x ((s.v x + 256 - s.v y) % 256) (s.v x ≥ s.v y)).next
  | 0x6 => .ok (s.setWithFlag x (shifted / 2) (shifted % 2 = 1)).next
  | 0x7 => .ok (s.setWithFlag x ((s.v y + 256 - s.v x) % 256) (s.v y ≥ s.v x)).next
  | 0xE => .ok (s.setWithFlag x (shifted * 2 % 256) (shifted / 128 = 1)).next
  | _ => .error (.unknownOpcode w.toUInt16)

/-- The instruction that draws a sprite. -/
def runDraw (s : State) (x y n : Nat) : State :=
  let (drawn, collided) := s.toggleAll false (s.points (s.v y) (s.v x) n)
  (drawn.set 15 collided.toNat).next

/-- Opcodes that begin with the nibble E: skips on keys.  A key number above 15 is never down. -/
def runKeys (s : State) (w x kk : Nat) : Except Fault State :=
  let down := decide (s.v x < 16) && s.key (s.v x)
  match kk with
  | 0x9E => .ok (s.skipIf down)
  | 0xA1 => .ok (s.skipIf !down)
  | _ => .error (.unknownOpcode w.toUInt16)

/-- The instruction that waits for a key and takes the lowest one that is down. -/
def runWait (s : State) (x : Nat) : State :=
  match (List.range 16).find? s.key with
  | some key => { s.set x key with blocked := false }.next
  | none => { s with blocked := true }.next

/-- The bytes that are stored for the three decimal digits of a number. -/
def decimals (s : State) (value : Nat) : List Nat :=
  [value / 100, value / 10 % 10, value % 10].map fun digit =>
    if s.rawDigits then digit else 5 * digit

/-- Opcodes that begin with the nibble F: timers, keys, memory. -/
def runTransfer (s : State) (w x kk : Nat) : Except Fault State :=
  match kk with
  | 0x07 => .ok (s.set x s.delay).next
  | 0x0A => .ok (s.runWait x)
  | 0x15 => .ok { s with delay := s.v x }.next
  | 0x18 => .ok { s with sound := s.v x }.next
  | 0x1E => .ok { s with i := (s.i + s.v x) % 65536 }.next
  | 0x29 => .ok { s with i := 5 * (s.v x % 16) }.next
  | 0x33 => .ok (s.writeAll s.i (s.decimals (s.v x))).next
  | 0x55 => .ok ((s.writeAll s.i ((List.range (x + 1)).map s.v)).passBlock x).next
  | 0x65 =>
    .ok ({ s with
      v := fun r => if r ≤ x then s.memory ((s.i + r) % s.size) else s.v r }.passBlock x).next
  | _ => .error (.unknownOpcode w.toUInt16)

/-- Runs the instruction with the opcode `w`, whose first nibble is `op`. -/
def dispatch (s : State) (w op x y n kk nnn : Nat) : Except Fault State :=
  match op with
  | 0x0 => s.runSystem w
  | 0x1 => .ok { s with pc := nnn }
  | 0x2 => .ok { s with stack := (s.pc + 2) % 65536 :: s.stack, pc := nnn }
  | 0x3 => .ok (s.skipIf (s.v x = kk))
  | 0x4 => .ok (s.skipIf (s.v x ≠ kk))
  | 0x5 => if n = 0 then .ok (s.skipIf (s.v x = s.v y)) else .error (.unknownOpcode w.toUInt16)
  | 0x6 => .ok (s.set x kk).next
  | 0x7 => .ok (s.set x ((s.v x + kk) % 256)).next
  | 0x8 => s.runArithmetic w x y n
  | 0x9 => if n = 0 then .ok (s.skipIf (s.v x ≠ s.v y)) else .error (.unknownOpcode w.toUInt16)
  | 0xA => .ok { s with i := nnn }.next
  | 0xB => .ok { s with pc := (nnn + s.v 0) % 65536 }
  | 0xC =>
    .ok ({ s with stream := fun index => s.stream (index + 1) }.set x (s.stream 0 &&& kk)).next
  | 0xD => .ok (s.runDraw x y n)
  | 0xE => s.runKeys w x kk
  | _ => s.runTransfer w x kk

/-- Runs the instruction with the opcode `w`. -/
def run (s : State) (w : Nat) : Except Fault State :=
  s.dispatch w (w / 4096) (w / 256 % 16) (w / 16 % 16) (w % 16) (w % 256) (w % 4096)

end State

/-! ## Steps -/

/-- One step.  A program counter whose two bytes are not both in memory and the opcode 0 halt the
interpreter, and an interpreter that has halted does nothing. -/
def step (s : State) : State × Except Fault Unit :=
  if s.exit ≠ none then (s, .ok ())
  else if s.size ≤ s.pc + 1 then ({ s with exit := some 0 }, .ok ())
  else
    let w := 256 * s.memory s.pc + s.memory (s.pc + 1)
    if w = 0 then ({ s with exit := some 0 }, .ok ())
    else
      match s.run w with
      | .ok s => (s, .ok ())
      | .error fault => (s, .error fault)

/-- The state after `n` steps, whether they succeed or not. -/
def after : Nat → State → State
  | 0, s => s
  | n + 1, s => after n (step s).1

/-- What `n` steps answer, one after the other. -/
def answers : Nat → State → List (Except Fault Unit)
  | 0, _ => []
  | n + 1, s => (step s).2 :: answers n (step s).1

end Chip8.Reference
