import Chip8.Journal
import Chip8.Machine.Operation

/-!
# Events of the machine

The events of each operation of the machine, from the state in which the operation starts.
-/

namespace Chip8

open Journal (Event)

/-- The event of decoding: an opcode that is decoded for the first time is told. -/
def Decoder.events (d : Decoder) (w : Opcode) : List Event :=
  if (d.lookup? w).isSome then []
  else
    match w.decode with
    | .ok i => [.decoded w i]
    | .error _ => []

/-- The events of executing an instruction. -/
def Instruction.events (i : Instruction) (m : Machine) : List Event :=
  if i.isExtended then [.unsupported i m.pc] else []

namespace Machine

/-- The events of making a machine. -/
def newEvents (config : Config) : List Event :=
  match config.flaw? with
  | none => [.reset 0 config.loadAddress]
  | some _ => []

/-- The events of a reset. -/
def resetEvents (m : Machine) : List Event := [.reset m.program.size m.origin]

/-- The events of loading a program at an address. -/
def loadAtEvents (m : Machine) (program : Array UInt8) (origin : UInt16) : List Event :=
  if m.hasRoomFor program.size origin then
    [.reset program.size origin, .loaded program.size origin]
  else []

/-- The events of loading a program. -/
def loadEvents (m : Machine) (program : Array UInt8) : List Event :=
  m.loadAtEvents program m.config.loadAddress

/-- The events of a step. -/
def stepEvents (m : Machine) : List Event :=
  if m.hasHalted || m.executing then []
  else
    match m.nextOpcode with
    | none => [.halted m.pc 0]
    | some w =>
      m.decoder.events w ++
        match w.decode with
        | .ok i => .executing m.pc w i :: i.events m
        | .error _ => []

/-- The events of steps. -/
def stepsEvents (n : Nat) (m : Machine) : List Event :=
  (Outcome.visited (fun _ => false) step n m).flatMap stepEvents

/-- The events of looking at the next instruction. -/
def peekEvents (m : Machine) : List Event :=
  match m.nextOpcode with
  | none => []
  | some w => m.decoder.events w

/-- The events of a cycle. -/
def cycleEvents (inspect : Bool) (m : Machine) : List Event :=
  if inspect then
    m.peekEvents ++
      match m.peek with
      | ⟨m, .ok (some i)⟩ => .inspected i m.snapshot :: m.stepEvents
      | ⟨m, .ok none⟩ => m.stepEvents
      | ⟨_, .error _⟩ => []
  else m.stepEvents

/-- The events of cycles. -/
def cyclesEvents (inspect : Bool) (n : Nat) (m : Machine) : List Event :=
  (Outcome.visited hasHalted (cycle inspect) n m).flatMap (cycleEvents inspect)

end Machine

/-- The events of an operation of the host. -/
def Operation.events (operation : Operation) (m : Machine) : List Event :=
  match operation with
  | .load program => m.loadEvents program
  | .loadAt program origin => m.loadAtEvents program origin
  | .reset => m.resetEvents
  | .step => m.stepEvents
  | .peek => m.peekEvents
  | .execute i => i.events m
  | _ => []

end Chip8
