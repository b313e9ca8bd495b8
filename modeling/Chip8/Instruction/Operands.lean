import Chip8.Instruction
import Chip8.Opcode.Format

/-!
# Operands of instructions

The operands that a format reads off an opcode are routed to the fields of an instruction: the
registers in order of appearance, reduced to the sixteen that exist, and the last constant.  An
address takes the whole constant, a byte or nibble field its low byte.  Operands that an instruction
has no field for are ignored, and a field without an operand is a fault.
-/

namespace Chip8

/-- Operands sorted for an instruction. -/
structure Operands where
  /-- The format they were read by, which a fault names. -/
  format : String
  /-- The registers in order of appearance, each below sixteen. -/
  registers : List UInt8
  /-- The last constant, if there is one. -/
  constant : Option UInt16
deriving DecidableEq

namespace Operand

/-- The register that the operand names, reduced to the sixteen that exist. -/
def register? : Operand → Option UInt8
  | register number => some (number &&& 0xF)
  | constant _ => none

/-- The constant that the operand is. -/
def constant? : Operand → Option UInt16
  | register _ => none
  | constant value => some value

end Operand

namespace Operands

/-- Sorts the operands that the format `format` has read. -/
def ofList (format : String) (operands : List Operand) : Operands where
  format
  registers := operands.filterMap Operand.register?
  constant := (operands.filterMap Operand.constant?).getLast?

/-- What there is, or the fault that the format supplies too little. -/
def supply {α : Type} (o : Operands) (operand : Option α) : Except Fault α :=
  match operand with
  | some value => .ok value
  | none => .error (.missingOperand o.format)

/-- The first register. -/
def x (o : Operands) : Except Fault UInt8 := o.supply o.registers[0]?

/-- The second register. -/
def y (o : Operands) : Except Fault UInt8 := o.supply o.registers[1]?

/-- The constant as an address. -/
def address (o : Operands) : Except Fault UInt16 := o.supply o.constant

/-- The low byte of the constant. -/
def byte (o : Operands) : Except Fault UInt8 := o.supply (o.constant.map UInt16.toUInt8)

end Operands

namespace Instruction

/-- The instruction of the same kind as `proto` that carries the operands `o`. -/
def fill (proto : Instruction) (o : Operands) : Except Fault Instruction :=
  match proto with
  | clearScreen | ret | scrollRight | scrollLeft | lowRes | highRes => .ok proto
  | scrollDown _ => return scrollDown (← o.byte)
  | jump _ => return jump (← o.address)
  | call _ => return call (← o.address)
  | skipEqByte .. => return skipEqByte (← o.x) (← o.byte)
  | skipNeByte .. => return skipNeByte (← o.x) (← o.byte)
  | skipEqReg .. => return skipEqReg (← o.x) (← o.y)
  | loadByte .. => return loadByte (← o.x) (← o.byte)
  | addByte .. => return addByte (← o.x) (← o.byte)
  | copy .. => return copy (← o.x) (← o.y)
  | or .. => return or (← o.x) (← o.y)
  | and .. => return and (← o.x) (← o.y)
  | xor .. => return xor (← o.x) (← o.y)
  | addReg .. => return addReg (← o.x) (← o.y)
  | subReg .. => return subReg (← o.x) (← o.y)
  | shiftRight .. => return shiftRight (← o.x) (← o.y)
  | subFrom .. => return subFrom (← o.x) (← o.y)
  | shiftLeft .. => return shiftLeft (← o.x) (← o.y)
  | skipNeReg .. => return skipNeReg (← o.x) (← o.y)
  | loadIndex _ => return loadIndex (← o.address)
  | jumpOffset _ => return jumpOffset (← o.address)
  | random .. => return random (← o.x) (← o.byte)
  | draw .. => return draw (← o.x) (← o.y) (← o.byte)
  | skipKeyDown _ => return skipKeyDown (← o.x)
  | skipKeyUp _ => return skipKeyUp (← o.x)
  | readDelay _ => return readDelay (← o.x)
  | waitKey _ => return waitKey (← o.x)
  | setDelay _ => return setDelay (← o.x)
  | setSound _ => return setSound (← o.x)
  | addIndex _ => return addIndex (← o.x)
  | loadGlyph _ => return loadGlyph (← o.x)
  | storeDecimal _ => return storeDecimal (← o.x)
  | storeRegs _ => return storeRegs (← o.x)
  | loadRegs _ => return loadRegs (← o.x)

end Instruction

end Chip8
