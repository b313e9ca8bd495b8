import Chip8.Instruction
import Chip8.Text.Hex
import Chip8.Text.Record

/-!
# Instructions as text

`Instruction.text` is the line of an assembly listing: the mnemonic and the operands, registers as
`V` and a hexadecimal digit, addresses and bytes in marked hexadecimal, nibbles in decimal.
`Instruction.record` names the kind of instruction in full and labels its operands in decimal.
-/

namespace Chip8

namespace Instruction

/-- The name of the register with number `r`. -/
def registerText (r : UInt8) : String := "V" ++ Text.Hex.padded 1 r.toNat

/-- An address constant, with at least three digits. -/
def addressText (addr : UInt16) : String := Text.Hex.marked 3 addr.toNat

/-- A byte constant, with at least two digits. -/
def byteText (byte : UInt8) : String := Text.Hex.marked 2 byte.toNat

/-- The operands as they are written behind the mnemonic. -/
def operandTexts : Instruction → List String
  | clearScreen | ret | scrollRight | scrollLeft | lowRes | highRes => []
  | scrollDown n => [toString n]
  | jump addr | call addr => [addressText addr]
  | jumpOffset addr => ["V0", addressText addr]
  | loadIndex addr => ["I", addressText addr]
  | skipEqByte x byte | skipNeByte x byte | loadByte x byte | addByte x byte | random x byte =>
    [registerText x, byteText byte]
  | skipEqReg x y | skipNeReg x y | copy x y | or x y | and x y | xor x y | addReg x y
  | subReg x y | shiftRight x y | subFrom x y | shiftLeft x y => [registerText x, registerText y]
  | draw x y n => [registerText x, registerText y, toString n]
  | skipKeyDown x | skipKeyUp x => [registerText x]
  | readDelay x => [registerText x, "DT"]
  | waitKey x => [registerText x, "K"]
  | setDelay x => ["DT", registerText x]
  | setSound x => ["ST", registerText x]
  | addIndex x => ["I", registerText x]
  | loadGlyph x => ["F", registerText x]
  | storeDecimal x => ["B", registerText x]
  | storeRegs x => ["[I]", registerText x]
  | loadRegs x => [registerText x, "[I]"]

/-- The instruction as a line of a listing. -/
def text (i : Instruction) : String :=
  match i.operandTexts with
  | [] => i.mnemonic
  | operands => i.mnemonic ++ " " ++ ", ".intercalate operands

/-- The name of the kind of instruction and its operands by label. -/
def parts : Instruction → String × List (String × String)
  | clearScreen => ("ClearScreen", [])
  | ret => ("Return", [])
  | scrollDown n => ("ScrollDown", [("n", toString n)])
  | scrollRight => ("ScrollRight", [])
  | scrollLeft => ("ScrollLeft", [])
  | lowRes => ("LowRes", [])
  | highRes => ("HighRes", [])
  | jump addr => ("Jump", [("addr", toString addr)])
  | call addr => ("Call", [("addr", toString addr)])
  | skipEqByte x byte => ("SkipEqConst", [("x", toString x), ("kk", toString byte)])
  | skipNeByte x byte => ("SkipNeConst", [("x", toString x), ("kk", toString byte)])
  | skipEqReg x y => ("SkipEqReg", [("x", toString x), ("y", toString y)])
  | loadByte x byte => ("LoadConst", [("x", toString x), ("kk", toString byte)])
  | addByte x byte => ("AddConst", [("x", toString x), ("kk", toString byte)])
  | copy x y => ("Copy", [("x", toString x), ("y", toString y)])
  | or x y => ("Or", [("x", toString x), ("y", toString y)])
  | and x y => ("And", [("x", toString x), ("y", toString y)])
  | xor x y => ("Xor", [("x", toString x), ("y", toString y)])
  | addReg x y => ("AddReg", [("x", toString x), ("y", toString y)])
  | subReg x y => ("SubReg", [("x", toString x), ("y", toString y)])
  | shiftRight x y => ("ShiftRight", [("x", toString x), ("y", toString y)])
  | subFrom x y => ("SubReverse", [("x", toString x), ("y", toString y)])
  | shiftLeft x y => ("ShiftLeft", [("x", toString x), ("y", toString y)])
  | skipNeReg x y => ("SkipNeReg", [("x", toString x), ("y", toString y)])
  | loadIndex addr => ("LoadI", [("addr", toString addr)])
  | jumpOffset addr => ("JumpOffset", [("addr", toString addr)])
  | random x byte => ("Random", [("x", toString x), ("kk", toString byte)])
  | draw x y n => ("Draw", [("x", toString x), ("y", toString y), ("n", toString n)])
  | skipKeyDown x => ("SkipKeyDown", [("x", toString x)])
  | skipKeyUp x => ("SkipKeyUp", [("x", toString x)])
  | readDelay x => ("GetDelay", [("x", toString x)])
  | waitKey x => ("WaitKey", [("x", toString x)])
  | setDelay x => ("SetDelay", [("x", toString x)])
  | setSound x => ("SetSound", [("x", toString x)])
  | addIndex x => ("AddI", [("x", toString x)])
  | loadGlyph x => ("LoadChar", [("x", toString x)])
  | storeDecimal x => ("StoreBcd", [("x", toString x)])
  | storeRegs x => ("StoreRegs", [("x", toString x)])
  | loadRegs x => ("LoadRegs", [("x", toString x)])

/-- The name of the kind of instruction. -/
def kind (i : Instruction) : String := i.parts.1

/-- The instruction as a record with labelled operands. -/
def record (i : Instruction) : String := Text.record i.parts.1 i.parts.2

/-- The prototype of the kind named `kind`. -/
def ofKind? (kind : String) : Option Instruction := all.find? fun proto => proto.kind == kind

end Instruction

end Chip8
