import Chip8.Machine.Step

/-!
# Operations of the host

Everything that a host can do to a machine, as values: `Operation.apply` carries one out and
`Operation.run` a list of them.  A failing operation does not end the list, since a host may go on
with the machine that it leaves.
-/

namespace Chip8

/-- An operation of the host on a machine. -/
inductive Operation where
  /-- Loads a program at the configured address. -/
  | load (program : Array UInt8)
  /-- Loads a program at an address. -/
  | loadAt (program : Array UInt8) (origin : UInt16)
  /-- Resets the machine. -/
  | reset
  /-- Steps the machine. -/
  | step
  /-- Decodes the instruction at the program counter. -/
  | peek
  /-- Executes an instruction in place, outside the program. -/
  | execute (instruction : Instruction)
  /-- Ticks the timers. -/
  | tick
  /-- Sets a register. -/
  | setRegister (r value : UInt8)
  /-- Sets the address register. -/
  | setIndex (value : UInt16)
  /-- Sets the program counter. -/
  | setCounter (value : UInt16)
  /-- Sets the delay timer. -/
  | setDelay (value : UInt32)
  /-- Sets the sound timer. -/
  | setSound (value : UInt32)
  /-- Writes bytes into memory, where all of them must lie. -/
  | poke (address : Nat) (bytes : Array UInt8)
  /-- Puts a return address on the call stack. -/
  | push (address : UInt16)
  /-- Takes a return address off the call stack. -/
  | pop
  /-- Looks at the return address on top of the call stack. -/
  | top
  /-- Presses a key. -/
  | keyDown (key : UInt8)
  /-- Lets go of a key. -/
  | keyUp (key : UInt8)
  /-- Writes a pixel. -/
  | setPixel (y x : Nat) (value : UInt8)
  /-- Puts a dark screen of another size in place. -/
  | replaceScreen (height width : Nat)
  /-- Asks whether the screen has changed and takes the note. -/
  | takeDirty
deriving DecidableEq

/-- What a host learns from an operation. -/
inductive Answer where
  /-- Nothing but that it is done. -/
  | done
  /-- A truth value. -/
  | flag (value : Bool)
  /-- A return address. -/
  | address (value : UInt16)
  /-- The instruction at the program counter, if the program goes on there. -/
  | next (instruction : Option Instruction)
deriving DecidableEq

/-- An outcome without an answer, as one of an operation. -/
def Outcome.toAnswer {σ ε : Type} (o : Outcome σ ε Unit) : Outcome σ ε Answer :=
  ⟨o.state, o.result.map fun () => .done⟩

namespace Machine

/-- Writes bytes into memory from an address on, where all of them must lie. -/
def poke (m : Machine) (address : Nat) (bytes : Array UInt8) : Outcome Machine Failure Unit :=
  if address + bytes.size ≤ m.memory.size then .done (m.writeBytes address bytes.toList) ()
  else .fail m .outOfBounds

/-- The `size` bytes of memory from an address on, if all of them lie in it. -/
def bytes? (m : Machine) (address size : Nat) : Option (Array UInt8) :=
  if address + size ≤ m.memory.size then some (m.memory.extract address (address + size)) else none

/-- Sets a timer of the machine through `store`. -/
def setTimer (m : Machine) (value : UInt32) (store : Timer → Machine) :
    Outcome Machine Failure Unit :=
  match Timer.set? value with
  | .ok timer => .done (store timer) ()
  | .error fault => .refuse m fault

end Machine

namespace Operation

/-- Carries out an operation. -/
def apply (operation : Operation) (m : Machine) : Outcome Machine Failure Answer :=
  match operation with
  | load program => (m.load program).toAnswer
  | loadAt program origin => (m.loadAt program origin).toAnswer
  | reset => .done m.reset .done
  | step => m.step.toAnswer
  | peek => ⟨m.peek.state, m.peek.result.map .next⟩
  | execute instruction => (instruction.execute m).toAnswer
  | tick => .done m.tick.1 (.flag m.tick.2)
  | setRegister r value => .done (m.setReg r value) .done
  | setIndex value => .done { m with i := value } .done
  | setCounter value => .done { m with pc := value } .done
  | setDelay value => (m.setTimer value fun delay => { m with delay }).toAnswer
  | setSound value => (m.setTimer value fun sound => { m with sound }).toAnswer
  | poke address bytes => (m.poke address bytes).toAnswer
  | push address => .done { m with stack := m.stack.push address } .done
  | pop =>
    match m.stack.pop with
    | .ok (address, stack) => .done { m with stack } (.address address)
    | .error fault => .refuse m fault
  | top =>
    match m.stack.top with
    | .ok address => .done m (.address address)
    | .error fault => .refuse m fault
  | keyDown key => (m.setKey key true).toAnswer
  | keyUp key => (m.setKey key false).toAnswer
  | setPixel y x value =>
    match m.screen.setPixel y x value with
    | ⟨screen, result⟩ => ⟨{ m with screen }, result.map .flag⟩
  | replaceScreen height width => .done { m with screen := .dark height width } .done
  | takeDirty => .done { m with screen := m.screen.clean } (.flag m.screen.dirty)

/-- The machine after a list of operations, whether they succeed or not. -/
def run (operations : List Operation) (m : Machine) : Machine :=
  operations.foldl (fun m operation => (operation.apply m).state) m

end Operation

end Chip8
