import Chip8.Proofs.Machine.Invariant

/-!
# Operations that check themselves

The definitions of the machine are total: an address is wrapped into the memory, a sum has no upper
limit, and what is missing is zero.  Here are the same operations with every such step checked.  A
sum or a product has to stay below the limit of its type, a divisor must not be zero, an index must
lie in its array, and a slice that is copied has to fit where it goes.  `none` is a check that fails.

* `reset?`, `fetch?`, `readByte?`, `writeByte?` and `setPixel?`: the parts with indices.
* `execute?`, `step?` and `operate?`: instructions, steps and operations made of these.  The loops
  run as loops, one byte, one register or one pixel after the other, and a write that is refused in
  the middle of one ends it there.
-/

namespace Chip8.Checked

/-! ## Arithmetic -/

/-- The number of addresses and sizes that the arithmetic of the host can tell apart. -/
def addressLimit : Nat := 2 ^ 64

/-- The number of values of sixteen bits. -/
def wordLimit : Nat := 2 ^ 16

/-- A sum that has to stay below a limit. -/
def add? (limit a b : Nat) : Option Nat := if a + b < limit then some (a + b) else none

/-- A product that has to stay below a limit. -/
def mul? (limit a b : Nat) : Option Nat := if a * b < limit then some (a * b) else none

/-- A difference that must not be negative. -/
def sub? (a b : Nat) : Option Nat := if b ≤ a then some (a - b) else none

/-- A remainder, whose divisor must not be zero. -/
def mod? (a b : Nat) : Option Nat := if b = 0 then none else some (a % b)

/-- A shift to the right by fewer places than a byte has. -/
def shiftRight? (value : UInt8) (places : Nat) : Option UInt8 :=
  if places < 8 then some (value >>> places.toUInt8) else none

/-! ## Arrays -/

/-- Sets an element that has to exist. -/
def set? {α : Type} (elements : Array α) (place : Nat) (value : α) : Option (Array α) :=
  if place < elements.size then some (elements.setIfInBounds place value) else none

/-- Copies bytes over the slice of the same length from `start` on, which has to exist. -/
def copyInto? (target : Array UInt8) (start : Nat) (source : Array UInt8) :
    Option (Array UInt8) := do
  let stop ← add? addressLimit start source.size
  if stop ≤ target.size then
    return Array.ofFn fun (place : Fin target.size) =>
      if start ≤ place ∧ place < stop then source.getD (place - start) 0 else target[place]
  else none

/-! ## Memory -/

/-- The memory after a reset: zeroes, the font over their start and the program over both. -/
def resetMemory? (m : Machine) : Option (Array UInt8) := do
  let zeroes := Array.replicate m.memory.size 0
  let withFont ← copyInto? zeroes 0 Font.bytes
  copyInto? withFont m.origin.toNat m.program

/-- A reset. -/
def reset? (m : Machine) : Option Machine := do
  return { m.reset with memory := ← resetMemory? m }

/-- Loads a program at `origin` and resets the machine to start there. -/
def loadAt? (m : Machine) (program : Array UInt8) (origin : UInt16) :
    Option (Outcome Machine Failure Unit) := do
  let stop ← add? addressLimit origin.toNat program.size
  if stop > m.memory.size then
    return .refuse m (.programTooLarge program.size origin m.memory.size)
  else
    return .done (← reset? { m with program, origin }) ()

/-- The opcode at the program counter, if both of its bytes lie in memory. -/
def fetch? (m : Machine) : Option (Option Opcode) :=
  match m.memory[m.pc.toNat]? with
  | none => some none
  | some high => do
    let next ← add? addressLimit m.pc.toNat 1
    return m.memory[next]?.map fun low => .ofBytes high low

/-- The byte of memory at an address, which wraps around the end of memory. -/
def readByte? (m : Machine) (address : Nat) : Option UInt8 := do
  let place ← mod? address m.memory.size
  m.memory[place]?

/-- Writes the byte of memory at an address, which wraps around the end of memory. -/
def writeByte? (m : Machine) (address : Nat) (value : UInt8) : Option Machine := do
  let place ← mod? address m.memory.size
  return { m with memory := ← set? m.memory place value }

/-- Writes bytes one after the other, the next one at `offset` from an address. -/
def writeBytes? (m : Machine) (address offset : Nat) : List UInt8 → Option Machine
  | [] => some m
  | byte :: rest => do
    let place ← add? addressLimit address offset
    writeBytes? (← writeByte? m place byte) address (offset + 1) rest

/-- Reads registers one after the other, the next one from the byte at `offset` from an address. -/
def readRegisters? (m : Machine) (address offset : Nat) : List UInt8 → Option Machine
  | [] => some m
  | r :: rest => do
    let place ← add? addressLimit address offset
    readRegisters? (m.setReg r (← readByte? m place)) address (offset + 1) rest

/-- Writes bytes into memory, each at an address that has to exist. -/
def poke? (m : Machine) (address : Nat) : List UInt8 → Option Machine
  | [] => some m
  | byte :: rest => do
    poke? { m with memory := ← set? m.memory address byte } (address + 1) rest

/-! ## The screen -/

/-- The place of a pixel, after wrapping around the edges. -/
def index? (s : Screen) (y x : Nat) : Option Nat := do
  let row ← mod? y s.height
  let start ← mul? addressLimit row s.width
  let column ← mod? x s.width
  add? addressLimit start column

/-- Writes a pixel with a number that must be 0 or 1. -/
def setPixel? (s : Screen) (y x : Nat) (value : UInt8) : Option (Outcome Screen Failure Bool) :=
  if value = 0 ∨ value = 1 then do
    let bit := value == 1
    let place ← index? s y x
    let old ← s.pixels[place]?
    let pixels ← set? s.pixels place (old ^^ bit)
    return .done { s with pixels, dirty := s.dirty || bit } (old && !(old ^^ bit))
  else some (.refuse s (.invalidPixel value))

/-- Draws columns of a row of a sprite, of which each bit is a number. -/
def drawColumns? (s : Screen) (y x : Nat) (row : UInt8) (collided : Bool) :
    List Nat → Option (Outcome Screen Failure Bool)
  | [] => some (.done s collided)
  | column :: columns => do
    let shifted ← shiftRight? row (← sub? 7 column)
    match ← setPixel? s y (← add? addressLimit x column) (shifted &&& 1) with
    | ⟨s, .ok hit⟩ => drawColumns? s y x row (collided || hit) columns
    | ⟨s, .error failure⟩ => return .fail s failure

/-- Draws rows of the sprite at `I`. -/
def drawRows? (m : Machine) (y x : Nat) (collided : Bool) :
    List Nat → Option (Outcome Machine Failure Bool)
  | [] => some (.done m collided)
  | row :: rows => do
    let bits ← readByte? m (← add? addressLimit m.i.toNat row)
    match ← drawColumns? m.screen (← add? addressLimit y row) x bits collided (List.range 8) with
    | ⟨screen, .ok collided⟩ => drawRows? { m with screen } y x collided rows
    | ⟨screen, .error failure⟩ => return .fail { m with screen } failure

/-- Draws the sprite of `n` bytes at `I` with its upper left corner at column `Vx` and row `Vy`. -/
def draw? (m : Machine) (x y n : UInt8) : Option (Outcome Machine Failure Unit) := do
  match ← drawRows? m (m.reg y).toNat (m.reg x).toNat false (List.range n.toNat) with
  | ⟨m, .ok collided⟩ => return .done (m.setFlag collided) ()
  | ⟨m, .error failure⟩ => return .fail m failure

/-! ## Instructions and operations -/

/-- The address of the glyph of a digit; only the low nibble of the digit counts. -/
def glyphAddress? (digit : UInt8) : Option UInt16 := do
  return (← mul? wordLimit (digit &&& 0xF).toNat Font.glyphSize).toUInt16

/-- The byte that a decimal digit is stored as. -/
def digitByte? (encoding : DecimalEncoding) (digit : UInt8) : Option UInt8 :=
  match encoding with
  | .fontAddress => do return (← glyphAddress? digit).toUInt8
  | .rawDigits => some digit

/-- Moves `I` behind the block of a transfer up to register `x`, if the machine is made so. -/
def passBlock? (m : Machine) (x : UInt8) : Option Machine :=
  if m.config.advanceIndex then do
    return { m with i := m.i + (← add? wordLimit x.toNat 1).toUInt16 }
  else some m

/-- Applies an instruction to a machine.  The instructions without an address, a loop or a value that
may be refused have nothing to check. -/
def execute? (i : Instruction) (m : Machine) : Option (Outcome Machine Failure Unit) :=
  match i with
  | .draw x y n => draw? m x y n
  | .setDelay x => some (m.setTimer (m.reg x).toUInt32 fun delay => { m with delay })
  | .setSound x => some (m.setTimer (m.reg x).toUInt32 fun sound => { m with sound })
  | .loadGlyph x => do return .done { m with i := ← glyphAddress? (m.reg x) } ()
  | .storeDecimal x => do
    let bytes ← (Machine.digits (m.reg x)).mapM (digitByte? m.config.decimals)
    return .done (← writeBytes? m m.i.toNat 0 bytes) ()
  | .storeRegs x => do
    let m ← writeBytes? m m.i.toNat 0 ((Machine.blockRegisters x).map m.reg)
    return .done (← passBlock? m x) ()
  | .loadRegs x => do
    let m ← readRegisters? m m.i.toNat 0 (Machine.blockRegisters x)
    return .done (← passBlock? m x) ()
  | i => some (i.execute m)

/-- Executes a decoded instruction and moves on behind it. -/
def perform? (m : Machine) (i : Instruction) : Option (Outcome Machine Failure Unit) := do
  match ← execute? i { m with executing := true } with
  | ⟨m, .ok ()⟩ => return .done ({ m with executing := false }.moveOn i) ()
  | ⟨m, .error failure⟩ => return .fail { m with executing := false } failure

/-- Fetches, decodes and executes one instruction. -/
def step? (m : Machine) : Option (Outcome Machine Failure Unit) :=
  if m.hasHalted then some (.done m ())
  else if m.executing then some (.refuse m .reentrant)
  else do
    match (← fetch? m).filter (· ≠ 0) with
    | none => return .done { m with exitCode := some 0 } ()
    | some w =>
      match m.decode w with
      | ⟨m, .error failure⟩ => return .fail m failure
      | ⟨m, .ok i⟩ => perform? m i

/-- Decodes the instruction at the program counter without executing it. -/
def peek? (m : Machine) : Option (Outcome Machine Failure (Option Instruction)) := do
  match (← fetch? m).filter (· ≠ 0) with
  | none => return .done m none
  | some w => return ⟨(m.decode w).state, (m.decode w).result.map some⟩

/-- Carries out an operation. -/
def operate? (operation : Operation) (m : Machine) : Option (Outcome Machine Failure Answer) :=
  match operation with
  | .load program => do return (← loadAt? m program m.config.loadAddress).toAnswer
  | .loadAt program origin => do return (← loadAt? m program origin).toAnswer
  | .reset => do return .done (← reset? m) .done
  | .step => do return (← step? m).toAnswer
  | .peek => do
    let peeked ← peek? m
    return ⟨peeked.state, peeked.result.map .next⟩
  | .execute i => do return (← execute? i m).toAnswer
  | .poke address bytes => do return .done (← poke? m address bytes.toList) .done
  | .setPixel y x value => do
    let written ← setPixel? m.screen y x value
    return ⟨{ m with screen := written.state }, written.result.map .flag⟩
  | .replaceScreen height width => do
    let _ ← mul? addressLimit height width
    return operation.apply m
  | _ => some (operation.apply m)

/-- Carries out operations one after the other, whether they succeed or not. -/
def run? : List Operation → Machine → Option Machine
  | [], m => some m
  | operation :: operations, m => do run? operations (← operate? operation m).state

end Chip8.Checked
