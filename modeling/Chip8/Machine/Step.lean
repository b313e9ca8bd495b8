import Chip8.Machine.Execute

/-!
# Stepping the machine

A step fetches the opcode at the program counter, decodes it and executes it.  The opcode `0000` and
a program counter whose two bytes are not both in memory halt the machine with exit code 0, and a
machine that has halted stays as it is.  After an instruction that does not choose where to go on the
counter moves on by two, unless the machine waits for a key and so has to execute the same
instruction again.
-/

namespace Chip8

namespace Machine

/-- The opcode at the program counter, if both of its bytes lie in memory. -/
def fetch (m : Machine) : Option Opcode := do
  let high ← m.memory[m.pc.toNat]?
  let low ← m.memory[m.pc.toNat + 1]?
  return .ofBytes high low

/-- The opcode at the program counter, if it is one to be executed and not the end of the program. -/
def nextOpcode (m : Machine) : Option Opcode := m.fetch.filter (· ≠ 0)

/-- Decodes an opcode with the machine's decoder. -/
def decode (m : Machine) (w : Opcode) : Outcome Machine Failure Instruction :=
  let (decoder, decoded) := m.decoder.decode w
  ⟨{ m with decoder }, decoded.mapError .fault⟩

/-- Moves the program counter on behind an instruction that has been executed. -/
def moveOn (m : Machine) (instruction : Instruction) : Machine :=
  if instruction.isJump || m.blocked then m else { m with pc := m.pc + 2 }

/-- Executes a decoded instruction and moves on behind it. -/
def perform (m : Machine) (instruction : Instruction) : Outcome Machine Failure Unit :=
  match instruction.execute { m with executing := true } with
  | ⟨m, .ok ()⟩ => .done ({ m with executing := false }.moveOn instruction) ()
  | ⟨m, .error (.fault fault)⟩ => .refuse { m with executing := false } fault
  | ⟨m, .error .outOfBounds⟩ => .fail m .outOfBounds

/-- Fetches, decodes and executes one instruction. -/
def step (m : Machine) : Outcome Machine Failure Unit :=
  if m.hasHalted then .done m ()
  else if m.executing then .refuse m .reentrant
  else
    match m.nextOpcode with
    | none => .done { m with exitCode := some 0 } ()
    | some w =>
      match m.decode w with
      | ⟨m, .error failure⟩ => .fail m failure
      | ⟨m, .ok instruction⟩ => m.perform instruction

/-- Makes `n` steps, or fewer if one fails. -/
def steps : Nat → Machine → Outcome Machine Failure Unit := .repeatTimes step

/-- Decodes the instruction at the program counter without executing it; there is none where the
program ends. -/
def peek (m : Machine) : Outcome Machine Failure (Option Instruction) :=
  match m.nextOpcode with
  | none => .done m none
  | some w =>
    match m.decode w with
    | ⟨m, .ok instruction⟩ => .done m (some instruction)
    | ⟨m, .error failure⟩ => .fail m failure

/-- A step, after a look at the instruction if `inspect` asks for one. -/
def cycle (inspect : Bool) (m : Machine) : Outcome Machine Failure Unit :=
  if inspect then
    match m.peek with
    | ⟨m, .ok _⟩ => m.step
    | ⟨m, .error failure⟩ => .fail m failure
  else m.step

/-- Runs `n` cycles, or fewer if the machine halts or one fails. -/
def cycles (inspect : Bool) : Nat → Machine → Outcome Machine Failure Unit :=
  .repeatUntil hasHalted (cycle inspect)

end Machine

end Chip8
