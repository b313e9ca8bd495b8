import Chip8.Machine

/-!
# Executing an instruction

`Instruction.execute` applies an instruction to a machine.  It sets the program counter only for the
instructions that choose where to go on (`Instruction.isJump`); `Machine.step` moves it on after the
others.  Operands are read before the flag register is written, and the flag is written last, so an
instruction whose target is the flag register leaves the flag in it.
-/

namespace Chip8

namespace Machine

/-- Skips the next instruction if the condition holds. -/
def skipIf (m : Machine) (condition : Bool) : Machine :=
  { m with pc := m.pc + if condition then 4 else 2 }

/-- The operand of a shift instruction. -/
def shiftOperand (m : Machine) (x y : UInt8) : UInt8 :=
  match m.config.shiftSource with
  | .vx => m.reg x
  | .vy => m.reg y

/-- The rows of a sprite of `n` bytes at `I`. -/
def sprite (m : Machine) (n : UInt8) : List UInt8 :=
  (List.range n.toNat).map fun row => m.readByte (m.i.toNat + row)

/-- Draws the sprite of `n` bytes at `I` with its upper left corner at column `Vx` and row `Vy`. -/
def draw (m : Machine) (x y n : UInt8) : Outcome Machine Failure Unit :=
  let dots := spriteDots (m.reg y).toNat (m.reg x).toNat (m.sprite n)
  match m.screen.plot false dots with
  | ⟨screen, .ok collided⟩ => .done ({ m with screen }.setFlag collided) ()
  | ⟨screen, .error failure⟩ => .fail { m with screen } failure

/-- Reads the first key that is down into `Vx`, or waits if there is none. -/
def awaitKey (m : Machine) (x : UInt8) : Machine :=
  match m.keypad.firstPressed? with
  | some key => { m.setReg x key with blocked := false }
  | none => { m with blocked := true }

/-- The three decimal digits of a byte, most significant first. -/
def digits (value : UInt8) : List UInt8 := [value / 100, value / 10 % 10, value % 10]

/-- The byte that a decimal digit is stored as. -/
def digitByte (encoding : DecimalEncoding) (digit : UInt8) : UInt8 :=
  match encoding with
  | .fontAddress => (Font.address digit).toUInt8
  | .rawDigits => digit

theorem toNat_digitByte (encoding : DecimalEncoding) {digit : UInt8} (h : digit.toNat < 10) :
    (digitByte encoding digit).toNat =
      if decide (encoding = .rawDigits) then digit.toNat else 5 * digit.toNat := by
  cases encoding with
  | rawDigits => rfl
  | fontAddress =>
    have haddress := Font.toNat_address digit
    rw [Nat.mod_eq_of_lt (by omega)] at haddress
    simp only [digitByte, UInt16.toNat_toUInt8, haddress, reduceCtorEq, decide_false,
      Bool.false_eq_true, if_false]
    omega

/-- Writes bytes one after the other from an address on, each address wrapping around the end of
memory. -/
def writeBytes (m : Machine) (address : Nat) : List UInt8 → Machine
  | [] => m
  | byte :: rest => (m.writeByte address byte).writeBytes (address + 1) rest

/-- The numbers of the registers in the block transfer up to register `x`. -/
def blockRegisters (x : UInt8) : List UInt8 := (List.range (x.toNat + 1)).map Nat.toUInt8

/-- Moves `I` behind the block of a transfer up to register `x`, if the machine is made so. -/
def passBlock (m : Machine) (x : UInt8) : Machine :=
  if m.config.advanceIndex then { m with i := m.i + x.toUInt16 + 1 } else m

/-- Reads registers one after the other from bytes of memory from an address on. -/
def readRegisters (m : Machine) (address : Nat) : List UInt8 → Machine
  | [] => m
  | r :: rest => (m.setReg r (m.readByte address)).readRegisters (address + 1) rest

end Machine

namespace Instruction

/-- Applies the instruction to a machine. -/
def execute (instruction : Instruction) (m : Machine) : Outcome Machine Failure Unit :=
  match instruction with
  | clearScreen => .done { m with screen := m.screen.clear } ()
  | ret =>
    match m.stack.pop with
    | .ok (address, stack) => .done { m with pc := address, stack } ()
    | .error fault => .refuse m fault
  | scrollDown _ | scrollRight | scrollLeft | lowRes | highRes =>
    .refuse m (.notImplemented instruction.mnemonic)
  | jump addr => .done { m with pc := addr } ()
  | call addr => .done { m with stack := m.stack.push (m.pc + 2), pc := addr } ()
  | skipEqByte x byte => .done (m.skipIf (m.reg x == byte)) ()
  | skipNeByte x byte => .done (m.skipIf (m.reg x != byte)) ()
  | skipEqReg x y => .done (m.skipIf (m.reg x == m.reg y)) ()
  | skipNeReg x y => .done (m.skipIf (m.reg x != m.reg y)) ()
  | loadByte x byte => .done (m.setReg x byte) ()
  | addByte x byte => .done (m.setReg x (m.reg x + byte)) ()
  | copy x y => .done (m.setReg x (m.reg y)) ()
  | or x y => .done (m.setReg x (m.reg x ||| m.reg y)) ()
  | and x y => .done (m.setReg x (m.reg x &&& m.reg y)) ()
  | xor x y => .done (m.setReg x (m.reg x ^^^ m.reg y)) ()
  | addReg x y =>
    let (vx, vy) := (m.reg x, m.reg y)
    .done ((m.setReg x (vx + vy)).setFlag (vx.toNat + vy.toNat > 255)) ()
  | subReg x y =>
    let (vx, vy) := (m.reg x, m.reg y)
    .done ((m.setReg x (vx - vy)).setFlag (vx ≥ vy)) ()
  | subFrom x y =>
    let (vx, vy) := (m.reg x, m.reg y)
    .done ((m.setReg x (vy - vx)).setFlag (vy ≥ vx)) ()
  | shiftRight x y =>
    let value := m.shiftOperand x y
    .done ((m.setReg x (value >>> 1)).setFlag (value.toNat.testBit 0)) ()
  | shiftLeft x y =>
    let value := m.shiftOperand x y
    .done ((m.setReg x (value <<< 1)).setFlag (value.toNat.testBit 7)) ()
  | loadIndex addr => .done { m with i := addr } ()
  | jumpOffset addr => .done { m with pc := addr + (m.reg 0).toUInt16 } ()
  | random x byte =>
    let (drawn, source) := m.random.next
    .done ({ m with random := source }.setReg x (drawn &&& byte)) ()
  | draw x y n => m.draw x y n
  | skipKeyDown x => .done (m.skipIf (m.keypad.isPressed (m.reg x))) ()
  | skipKeyUp x => .done (m.skipIf !(m.keypad.isPressed (m.reg x))) ()
  | readDelay x => .done (m.setReg x m.delay.count) ()
  | waitKey x => .done (m.awaitKey x) ()
  | setDelay x => .done { m with delay := { count := m.reg x } } ()
  | setSound x => .done { m with sound := { count := m.reg x } } ()
  | addIndex x => .done { m with i := m.i + (m.reg x).toUInt16 } ()
  | loadGlyph x => .done { m with i := Font.address (m.reg x) } ()
  | storeDecimal x =>
    let bytes := (Machine.digits (m.reg x)).map (Machine.digitByte m.config.decimals)
    .done (m.writeBytes m.i.toNat bytes) ()
  | storeRegs x =>
    let bytes := (Machine.blockRegisters x).map m.reg
    .done ((m.writeBytes m.i.toNat bytes).passBlock x) ()
  | loadRegs x =>
    .done ((m.readRegisters m.i.toNat (Machine.blockRegisters x)).passBlock x) ()

end Instruction

end Chip8
