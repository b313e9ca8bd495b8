/-!
# Instructions

A decoded instruction with its operands: `x` and `y` are numbers of registers, `byte` is a byte
constant, `n` a nibble constant and `addr` an address.  `Instruction.all` lists the instruction set
with one prototype of each kind, whose operands are placeholders.  The other facts here say how an
instruction is written in an opcode and in a listing, and which instructions set the program counter
themselves.
-/

namespace Chip8

/-- An instruction of the machine. -/
inductive Instruction where
  /-- Turns every pixel off. -/
  | clearScreen
  /-- Returns to the address on top of the call stack. -/
  | ret
  /-- Scrolls the extended display down by `n` rows. -/
  | scrollDown (n : UInt8)
  /-- Scrolls the extended display right. -/
  | scrollRight
  /-- Scrolls the extended display left. -/
  | scrollLeft
  /-- Leaves the extended display. -/
  | lowRes
  /-- Enters the extended display. -/
  | highRes
  /-- Goes on at `addr`. -/
  | jump (addr : UInt16)
  /-- Calls the subroutine at `addr`. -/
  | call (addr : UInt16)
  /-- Skips the next instruction if `Vx` equals `byte`. -/
  | skipEqByte (x byte : UInt8)
  /-- Skips the next instruction if `Vx` differs from `byte`. -/
  | skipNeByte (x byte : UInt8)
  /-- Skips the next instruction if `Vx` equals `Vy`. -/
  | skipEqReg (x y : UInt8)
  /-- Sets `Vx` to `byte`. -/
  | loadByte (x byte : UInt8)
  /-- Adds `byte` to `Vx` and leaves the flag alone. -/
  | addByte (x byte : UInt8)
  /-- Sets `Vx` to `Vy`. -/
  | copy (x y : UInt8)
  /-- Sets `Vx` to the bitwise or of `Vx` and `Vy`. -/
  | or (x y : UInt8)
  /-- Sets `Vx` to the bitwise and of `Vx` and `Vy`. -/
  | and (x y : UInt8)
  /-- Sets `Vx` to the bitwise exclusive or of `Vx` and `Vy`. -/
  | xor (x y : UInt8)
  /-- Adds `Vy` to `Vx`; the flag is the carry. -/
  | addReg (x y : UInt8)
  /-- Subtracts `Vy` from `Vx`; the flag is set if there was no borrow. -/
  | subReg (x y : UInt8)
  /-- Shifts the shift source right into `Vx`; the flag is the bit shifted out. -/
  | shiftRight (x y : UInt8)
  /-- Sets `Vx` to `Vy` less `Vx`; the flag is set if there was no borrow. -/
  | subFrom (x y : UInt8)
  /-- Shifts the shift source left into `Vx`; the flag is the bit shifted out. -/
  | shiftLeft (x y : UInt8)
  /-- Skips the next instruction if `Vx` differs from `Vy`. -/
  | skipNeReg (x y : UInt8)
  /-- Sets `I` to `addr`. -/
  | loadIndex (addr : UInt16)
  /-- Goes on at `addr` plus `V0`. -/
  | jumpOffset (addr : UInt16)
  /-- Sets `Vx` to a random byte under the mask `byte`. -/
  | random (x byte : UInt8)
  /-- Draws the `n` byte sprite at `I` at column `Vx`, row `Vy`; the flag is the collision. -/
  | draw (x y n : UInt8)
  /-- Skips the next instruction if the key in `Vx` is down. -/
  | skipKeyDown (x : UInt8)
  /-- Skips the next instruction if the key in `Vx` is up. -/
  | skipKeyUp (x : UInt8)
  /-- Sets `Vx` to the delay timer. -/
  | readDelay (x : UInt8)
  /-- Waits for a key and sets `Vx` to it. -/
  | waitKey (x : UInt8)
  /-- Sets the delay timer to `Vx`. -/
  | setDelay (x : UInt8)
  /-- Sets the sound timer to `Vx`. -/
  | setSound (x : UInt8)
  /-- Adds `Vx` to `I`. -/
  | addIndex (x : UInt8)
  /-- Sets `I` to the glyph of the digit in `Vx`. -/
  | loadGlyph (x : UInt8)
  /-- Stores the three decimal digits of `Vx` at `I`. -/
  | storeDecimal (x : UInt8)
  /-- Stores `V0` to `Vx` at `I`. -/
  | storeRegs (x : UInt8)
  /-- Loads `V0` to `Vx` from `I`. -/
  | loadRegs (x : UInt8)
deriving DecidableEq

namespace Instruction

/-- The instruction set, one prototype of each kind. -/
def all : List Instruction := [
  clearScreen, ret, scrollDown 0, scrollRight, scrollLeft, lowRes, highRes, jump 0, call 0,
  skipEqByte 0 0, skipNeByte 0 0, skipEqReg 0 0, loadByte 0 0, addByte 0 0, copy 0 0, or 0 0,
  and 0 0, xor 0 0, addReg 0 0, subReg 0 0, shiftRight 0 0, subFrom 0 0, shiftLeft 0 0,
  skipNeReg 0 0, loadIndex 0, jumpOffset 0, random 0 0, draw 0 0 0, skipKeyDown 0, skipKeyUp 0,
  readDelay 0, waitKey 0, setDelay 0, setSound 0, addIndex 0, loadGlyph 0, storeDecimal 0,
  storeRegs 0, loadRegs 0]

/-- The format of the instruction's opcode. -/
def format : Instruction → String
  | clearScreen => "00E0"
  | ret => "00EE"
  | scrollDown _ => "00CN"
  | scrollRight => "00FB"
  | scrollLeft => "00FC"
  | lowRes => "00FE"
  | highRes => "00FF"
  | jump _ => "1NNN"
  | call _ => "2NNN"
  | skipEqByte .. => "3XNN"
  | skipNeByte .. => "4XNN"
  | skipEqReg .. => "5XY0"
  | loadByte .. => "6XNN"
  | addByte .. => "7XNN"
  | copy .. => "8XY0"
  | or .. => "8XY1"
  | and .. => "8XY2"
  | xor .. => "8XY3"
  | addReg .. => "8XY4"
  | subReg .. => "8XY5"
  | shiftRight .. => "8XY6"
  | subFrom .. => "8XY7"
  | shiftLeft .. => "8XYE"
  | skipNeReg .. => "9XY0"
  | loadIndex _ => "ANNN"
  | jumpOffset _ => "BNNN"
  | random .. => "CXNN"
  | draw .. => "DXYN"
  | skipKeyDown _ => "EX9E"
  | skipKeyUp _ => "EXA1"
  | readDelay _ => "FX07"
  | waitKey _ => "FX0A"
  | setDelay _ => "FX15"
  | setSound _ => "FX18"
  | addIndex _ => "FX1E"
  | loadGlyph _ => "FX29"
  | storeDecimal _ => "FX33"
  | storeRegs _ => "FX55"
  | loadRegs _ => "FX65"

/-- The name of the operation in assembly language; several instructions share one. -/
def mnemonic : Instruction → String
  | clearScreen => "CLS"
  | ret => "RET"
  | scrollDown _ => "SCD"
  | scrollRight => "SCR"
  | scrollLeft => "SCL"
  | lowRes => "LOW"
  | highRes => "HIGH"
  | jump _ | jumpOffset _ => "JP"
  | call _ => "CALL"
  | skipEqByte .. | skipEqReg .. => "SE"
  | skipNeByte .. | skipNeReg .. => "SNE"
  | loadByte .. | copy .. | loadIndex _ | readDelay _ | waitKey _ | setDelay _ | setSound _
  | loadGlyph _ | storeDecimal _ | storeRegs _ | loadRegs _ => "LD"
  | addByte .. | addReg .. | addIndex _ => "ADD"
  | or .. => "OR"
  | and .. => "AND"
  | xor .. => "XOR"
  | subReg .. => "SUB"
  | shiftRight .. => "SHR"
  | subFrom .. => "SUBN"
  | shiftLeft .. => "SHL"
  | random .. => "RND"
  | draw .. => "DRW"
  | skipKeyDown _ => "SKP"
  | skipKeyUp _ => "SKNP"

/-- Whether the instruction sets the program counter itself.  After every other instruction that
does not wait the counter moves on by two. -/
def isJump : Instruction → Bool
  | ret | jump _ | call _ | jumpOffset _ | skipEqByte .. | skipNeByte .. | skipEqReg ..
  | skipNeReg .. | skipKeyDown _ | skipKeyUp _ => true
  | _ => false

/-- Whether the instruction belongs to the extended display, which is decoded but not run. -/
def isExtended : Instruction → Bool
  | scrollDown _ | scrollRight | scrollLeft | lowRes | highRes => true
  | _ => false

theorem isExtended_iff {i : Instruction} :
    i.isExtended ↔ (∃ lines, i = .scrollDown lines) ∨ i = .scrollRight ∨ i = .scrollLeft ∨
      i = .lowRes ∨ i = .highRes := by
  unfold isExtended
  cases i <;> simp

end Instruction

end Chip8
