import Chip8.Instruction.Operands

/-!
# Decoding

An opcode decodes to the instruction whose format accepts it, provided that exactly one format of
the table does.  Decoding depends on the opcode alone, so a `Decoder` remembers what it has decoded
in a table with a place for every opcode, and answers from memory when the opcode comes again.
Opcodes that failed to decode are not remembered.
-/

namespace Chip8

/-- Formats with the prototypes of the instructions that they introduce. -/
abbrev InstructionTable := List (Format × Instruction)

namespace InstructionTable

/-- The table of prototypes by their formats, or the fault of the first format that is none. -/
def ofPrototypes : List Instruction → Except Fault InstructionTable
  | [] => .ok []
  | proto :: rest => do
    let format ← Format.parse proto.format
    return (format, proto) :: (← ofPrototypes rest)

/-- The table of the instruction set. -/
def standard : InstructionTable := (ofPrototypes Instruction.all).toOption.getD []

/-- The instruction that the opcode stands for in the table. -/
def decode (table : InstructionTable) (w : Opcode) : Except Fault Instruction :=
  match table.filter fun (format, _) => format.accepts w with
  | [] => .error (.unknownOpcode w)
  | [(format, proto)] => do proto.fill (.ofList format.text (← format.operands w))
  | many => .error (.ambiguousOpcode w (many.map fun (format, _) => format.text))

end InstructionTable

/-- The instruction that the opcode stands for in the instruction set. -/
def Opcode.decode (w : Opcode) : Except Fault Instruction := InstructionTable.standard.decode w

/-- A decoder and the opcodes that it has decoded. -/
structure Decoder where
  /-- The instructions decoded so far, each at the place of its opcode. -/
  cache : Vector (Option Instruction) UInt16.size := .replicate _ none
  /-- How many different opcodes have been decoded. -/
  size : Nat := 0

namespace Decoder

/-- What the decoder remembers of an opcode. -/
def lookup? (d : Decoder) (w : Opcode) : Option Instruction := d.cache[w.toFin]

/-- The decoder that remembers one opcode more. -/
def remember (d : Decoder) (w : Opcode) (i : Instruction) : Decoder :=
  { cache := d.cache.set w.toFin (some i), size := d.size + 1 }

/-- Decodes an opcode, from memory if it has been decoded before. -/
def decode (d : Decoder) (w : Opcode) : Decoder × Except Fault Instruction :=
  match d.lookup? w with
  | some i => (d, .ok i)
  | none =>
    match w.decode with
    | .error fault => (d, .error fault)
    | .ok i => (d.remember w i, .ok i)

@[simp] theorem lookup?_empty (w : Opcode) : lookup? {} w = none := by
  simp [lookup?]

theorem lookup?_remember (d : Decoder) (w w' : Opcode) (i : Instruction) :
    (d.remember w i).lookup? w' = if w = w' then some i else d.lookup? w' := by
  simp [lookup?, remember, Vector.getElem_set, UInt16.toNat_inj]

end Decoder

end Chip8
