import Chip8.CallStack
import Chip8.Config
import Chip8.Decoder
import Chip8.Keypad
import Chip8.Random
import Chip8.Screen
import Chip8.Timer

/-!
# The machine

The state of the interpreter and the ways in which a host sets it up.  A host makes a machine from a
configuration, loads a program and then steps it at a rate of its choice, ticking the timers sixty
times a second; the machine owns no clock.  `Machine.reset` restores all that a program can change,
from the program that was loaded last.  The keypad belongs to the host, and what the decoder has
seen is no part of the program's world, so a reset keeps both.
-/

namespace Chip8

/-- The sixteen byte registers. -/
abbrev Registers := Vector UInt8 16

namespace Registers

/-- All registers at zero. -/
def zero : Registers := Vector.replicate 16 0

/-- Only the low nibble of a register number counts. -/
theorem place_lt (r : UInt8) : r.toNat % 16 < 16 := Nat.mod_lt _ (by decide)

/-- The value of a register; only the low nibble of its number counts. -/
def read (v : Registers) (r : UInt8) : UInt8 := v.get ⟨r.toNat % 16, place_lt r⟩

/-- Sets a register; only the low nibble of its number counts. -/
def write (v : Registers) (r value : UInt8) : Registers :=
  v.set (r.toNat % 16) value (place_lt r)

theorem read_write (v : Registers) (r value other : UInt8) :
    (v.write r value).read other =
      if r.toNat % 16 = other.toNat % 16 then value else v.read other :=
  Vector.getElem_set (place_lt r) (place_lt other)

end Registers

/-- The number of the register that instructions set as a flag. -/
def flagRegister : UInt8 := 0xF

/-- The state of a machine. -/
structure Machine where
  /-- What the machine was made with. -/
  config : Config
  /-- The bytes of memory. -/
  memory : Array UInt8
  /-- The registers `V0` to `VF`. -/
  v : Registers
  /-- The address register `I`. -/
  i : UInt16
  /-- The program counter. -/
  pc : UInt16
  /-- The return addresses. -/
  stack : CallStack
  /-- The screen. -/
  screen : Screen
  /-- The keypad, which the host sets. -/
  keypad : Keypad
  /-- The delay timer. -/
  delay : Timer
  /-- The sound timer. -/
  sound : Timer
  /-- Whether the machine waits for a key. -/
  blocked : Bool
  /-- The exit code of a machine that has halted. -/
  exitCode : Option UInt32
  /-- The source of random bytes. -/
  random : Random
  /-- The decoder with what it has decoded. -/
  decoder : Decoder
  /-- The program that a reset restores. -/
  program : Array UInt8
  /-- The address of that program. -/
  origin : UInt16
  /-- Whether an instruction is being executed.  It stays set when one went out of bounds. -/
  executing : Bool

namespace Machine

/-- A memory of `size` bytes that holds the font at its start, the program at `origin` and zeroes
elsewhere.  Where both could stand the program wins. -/
def image (size : Nat) (program : Array UInt8) (origin : Nat) : Array UInt8 :=
  Array.ofFn fun (address : Fin size) =>
    if origin ≤ address ∧ address < origin + program.size then program.getD (address - origin) 0
    else Font.bytes.getD address 0

theorem size_image (size : Nat) (program : Array UInt8) (origin : Nat) :
    (image size program origin).size = size := by
  simp [image]

/-- Restores all that a program can change, from the program that was loaded last. -/
def reset (m : Machine) : Machine :=
  { m with
    memory := image m.memory.size m.program m.origin.toNat
    v := .zero
    i := 0
    pc := m.origin
    stack := {}
    screen := m.screen.clear
    delay := {}
    sound := {}
    blocked := false
    exitCode := none
    executing := false }

/-- A machine without a program.  Where the configuration has no seed, `entropy` fixes its random
bytes. -/
def new (config : Config) (entropy : Random.Key) : Except Fault Machine := do
  config.validate
  return {
    config
    memory := image config.memorySize #[] config.loadAddress.toNat
    v := .zero
    i := 0
    pc := config.loadAddress
    stack := {}
    screen := .standard
    keypad := {}
    delay := {}
    sound := {}
    blocked := false
    exitCode := none
    random := .start config.seed entropy
    decoder := {}
    program := #[]
    origin := config.loadAddress
    executing := false }

/-- Whether a program of `size` bytes at `origin` ends within the memory. -/
def hasRoomFor (m : Machine) (size : Nat) (origin : UInt16) : Bool :=
  origin.toNat + size ≤ m.memory.size

/-- Loads a program at `origin` and resets the machine to start there. -/
def loadAt (m : Machine) (program : Array UInt8) (origin : UInt16) :
    Outcome Machine Failure Unit :=
  if m.hasRoomFor program.size origin then .done { m with program, origin }.reset ()
  else .refuse m (.programTooLarge program.size origin m.memory.size)

/-- Loads a program at the configured address. -/
def load (m : Machine) (program : Array UInt8) : Outcome Machine Failure Unit :=
  m.loadAt program m.config.loadAddress

/-- Whether the machine has halted. -/
def hasHalted (m : Machine) : Bool := m.exitCode.isSome

/-- The byte of memory at an address, which wraps around the end of memory. -/
def readByte (m : Machine) (address : Nat) : UInt8 := m.memory.getD (address % m.memory.size) 0

/-- Writes the byte of memory at an address, which wraps around the end of memory. -/
def writeByte (m : Machine) (address : Nat) (value : UInt8) : Machine :=
  { m with memory := m.memory.setIfInBounds (address % m.memory.size) value }

theorem readByte_writeByte {m : Machine} (h : 0 < m.memory.size) (address other : Nat)
    (value : UInt8) :
    (m.writeByte address value).readByte other =
      if address % m.memory.size = other % m.memory.size then value else m.readByte other := by
  have hlt := Nat.mod_lt address h
  simp only [readByte, writeByte, Array.getD_eq_getD_getElem?, Array.size_setIfInBounds,
    Array.getElem?_setIfInBounds, hlt, if_true]
  split <;> simp

/-- The value of a register. -/
def reg (m : Machine) (r : UInt8) : UInt8 := m.v.read r

/-- Sets a register. -/
def setReg (m : Machine) (r value : UInt8) : Machine := { m with v := m.v.write r value }

/-- Sets the flag register to a truth value. -/
def setFlag (m : Machine) (flag : Bool) : Machine :=
  m.setReg flagRegister (if flag then 1 else 0)

/-- Counts both timers down by one.  The answer tells whether the sound timer is still running, so
that the host should sound its tone for this tick. -/
def tick (m : Machine) : Machine × Bool :=
  let sound := m.sound.tick
  ({ m with delay := m.delay.tick, sound }, sound.isActive)

/-- Moves a key of the keypad down or up. -/
def setKey (m : Machine) (key : UInt8) (down : Bool) : Outcome Machine Failure Unit :=
  match m.keypad.set key down with
  | .ok keypad => .done { m with keypad } ()
  | .error fault => .refuse m fault

end Machine

end Chip8
