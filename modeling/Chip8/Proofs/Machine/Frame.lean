import Chip8.Machine.Execute
import Chip8.Proofs.Screen.Grid

/-!
# What an instruction leaves alone

An instruction works on the registers, the memory, the stack, the screen, the timers and the source
of random bytes.  It reads the configuration and the keypad, and it does not look at the rest of the
machine: the exit code, the decoder, the loaded program and the note that an instruction is being
executed belong to the host.

* `Machine.writeBytes_eq`, `readRegisters_eq` and `passBlock_eq`: a block transfer is one change of the
  memory, of the registers or of `I`.
* `Instruction.execute_hostedBy`: an instruction does the same whatever the host's part of the
  machine is.  That it leaves this part as it is follows (`state_execute_eq`).
* `Machine.draw_eq`: a sprite is drawn by writing the dots of its rows.
* `Instruction.sameFrame_execute`: what an instruction may read but does not change.
* `Instruction.execute_eq_error_iff` and `state_execute_of_error`: which instructions fail, and that
  they change nothing when they do.
-/

namespace Chip8

namespace Machine

/-! ## Block transfers -/

/-- A memory with bytes written one after the other from an address on, each address wrapping around
the end of memory. -/
def overwritten (memory : Array UInt8) (address : Nat) : List UInt8 → Array UInt8
  | [] => memory
  | byte :: rest =>
    overwritten (memory.setIfInBounds (address % memory.size) byte) (address + 1) rest

theorem writeBytes_eq (m : Machine) (address : Nat) (bytes : List UInt8) :
    m.writeBytes address bytes = { m with memory := overwritten m.memory address bytes } := by
  induction bytes generalizing m address with
  | nil => rfl
  | cons byte rest ih => exact ih (m.writeByte address byte) (address + 1)

theorem size_overwritten (memory : Array UInt8) (address : Nat) (bytes : List UInt8) :
    (overwritten memory address bytes).size = memory.size := by
  induction bytes generalizing memory address with
  | nil => rfl
  | cons byte rest ih => rw [overwritten, ih, Array.size_setIfInBounds]

/-- Registers read one after the other from bytes of memory from an address on. -/
def filled (memory : Array UInt8) (v : Registers) (address : Nat) : List UInt8 → Registers
  | [] => v
  | r :: rest =>
    filled memory (v.write r (memory.getD (address % memory.size) 0)) (address + 1) rest

theorem readRegisters_eq (m : Machine) (address : Nat) (registers : List UInt8) :
    m.readRegisters address registers = { m with v := filled m.memory m.v address registers } := by
  induction registers generalizing m address with
  | nil => rfl
  | cons r rest ih => exact ih (m.setReg r (m.readByte address)) (address + 1)

theorem passBlock_eq (m : Machine) (x : UInt8) :
    m.passBlock x =
      { m with i := if m.config.advanceIndex then m.i + x.toUInt16 + 1 else m.i } := by
  cases h : m.config.advanceIndex <;> simp [passBlock, h]

/-! ## The host's part of a machine -/

/-- The machine with everything that no instruction looks at taken from another. -/
def hostedBy (m host : Machine) : Machine :=
  { m with
    exitCode := host.exitCode
    decoder := host.decoder
    program := host.program
    origin := host.origin
    executing := host.executing }

theorem writeBytes_hostedBy (m host : Machine) (address : Nat) (bytes : List UInt8) :
    (m.hostedBy host).writeBytes address bytes = (m.writeBytes address bytes).hostedBy host := by
  rw [writeBytes_eq, writeBytes_eq]
  rfl

theorem awaitKey_hostedBy (m host : Machine) (x : UInt8) :
    (m.hostedBy host).awaitKey x = (m.awaitKey x).hostedBy host := by
  cases h : m.keypad.firstPressed? <;> simp [awaitKey, hostedBy, h, setReg]

theorem draw_hostedBy (m host : Machine) (x y n : UInt8) :
    (m.hostedBy host).draw x y n = (m.draw x y n).within (·.hostedBy host) := by
  have hdots : spriteDots ((m.hostedBy host).reg y).toNat ((m.hostedBy host).reg x).toNat
      ((m.hostedBy host).sprite n) = spriteDots (m.reg y).toNat (m.reg x).toNat (m.sprite n) := rfl
  have hscreen : (m.hostedBy host).screen = m.screen := rfl
  rw [draw, draw, hdots, hscreen]
  obtain ⟨screen, result⟩ := m.screen.plot false _
  cases result <;> rfl

end Machine

namespace Instruction

open Machine

/-- No instruction looks at the host's part of a machine. -/
theorem execute_hostedBy (i : Instruction) (m host : Machine) :
    i.execute (m.hostedBy host) = (i.execute m).within (·.hostedBy host) := by
  cases i with
  | ret =>
    simp only [execute]
    cases hpop : m.stack.pop with
    | ok result => simp [hostedBy, hpop, Outcome.within, Outcome.done]
    | error fault => simp [hostedBy, hpop, Outcome.within, Outcome.refuse]
  | draw x y n => exact m.draw_hostedBy host x y n
  | waitKey x => exact congrArg (Outcome.done · ()) (m.awaitKey_hostedBy host x)
  | storeDecimal x => exact congrArg (Outcome.done · ()) (m.writeBytes_hostedBy host _ _)
  | storeRegs x =>
    simp only [execute, passBlock_eq, writeBytes_eq]
    rfl
  | loadRegs x =>
    simp only [execute, passBlock_eq, readRegisters_eq]
    rfl
  | _ => rfl

/-- No instruction changes the host's part of a machine. -/
theorem state_execute_eq (i : Instruction) (m : Machine) :
    (i.execute m).state = (i.execute m).state.hostedBy m :=
  congrArg Outcome.state (i.execute_hostedBy m m)

theorem exitCode_execute (i : Instruction) (m : Machine) :
    (i.execute m).state.exitCode = m.exitCode := by
  rw [state_execute_eq]
  rfl

end Instruction

namespace Machine

/-! ## Drawing -/

/-- The dots of rows of the sprite at `I`, whose upper left corner is at row `y` and column `x`. -/
def rowsDots (m : Machine) (y x : Nat) (rows : List Nat) : List Screen.Dot :=
  rows.flatMap fun row => Screen.rowDots (y + row) x (m.readByte (m.i.toNat + row))

theorem rowsDots_cons (m : Machine) (y x row : Nat) (rows : List Nat) :
    m.rowsDots y x (row :: rows) =
      Screen.rowDots (y + row) x (m.readByte (m.i.toNat + row)) ++ m.rowsDots y x rows := rfl

/-- The dots come from the memory and from `I`, whatever is on the screen. -/
theorem rowsDots_withScreen (m : Machine) (screen : Screen) (y x : Nat) (rows : List Nat) :
    ({ m with screen } : Machine).rowsDots y x rows = m.rowsDots y x rows := by
  have hbyte (address : Nat) :
      ({ m with screen } : Machine).readByte address = m.readByte address := rfl
  simp only [rowsDots, hbyte]

/-- On a screen that has pixels drawing a sprite writes its dots. -/
theorem draw_eq {m : Machine} (hs : m.screen.WellFormed) (x y n : UInt8) :
    let dots := m.rowsDots (m.reg y).toNat (m.reg x).toNat (List.range n.toNat)
    m.draw x y n =
      .done (({ m with screen := m.screen.plotted dots }).setFlag (m.screen.collides dots)) () := by
  intro dots
  have hdots : spriteDots (m.reg y).toNat (m.reg x).toNat (m.sprite n) = dots :=
    Screen.spriteDots_eq (m.reg y).toNat (m.reg x).toNat _ n.toNat
  rw [draw, hdots, Screen.plot_eq hs]
  simp only [Outcome.done, Bool.false_or]

/-! ## What instructions read and do not change -/

/-- The machines agree in what instructions read but do not change: the configuration, the keypad,
the size of the memory and the shape of the screen. -/
structure SameFrame (m m' : Machine) : Prop where
  config : m'.config = m.config
  keypad : m'.keypad = m.keypad
  size_memory : m'.memory.size = m.memory.size
  screen : m.screen.SameShape m'.screen

theorem SameFrame.refl (m : Machine) : SameFrame m m := ⟨rfl, rfl, rfl, .refl _⟩

theorem SameFrame.trans {m m' m'' : Machine} (h : SameFrame m m') (h' : SameFrame m' m'') :
    SameFrame m m'' :=
  ⟨h'.config.trans h.config, h'.keypad.trans h.keypad, h'.size_memory.trans h.size_memory,
    h.screen.trans h'.screen⟩

theorem sameFrame_writeBytes (m : Machine) (address : Nat) (bytes : List UInt8) :
    SameFrame m (m.writeBytes address bytes) := by
  rw [writeBytes_eq]
  exact ⟨rfl, rfl, size_overwritten m.memory address bytes, .refl _⟩

theorem sameFrame_readRegisters (m : Machine) (address : Nat) (registers : List UInt8) :
    SameFrame m (m.readRegisters address registers) := by
  rw [readRegisters_eq]
  exact ⟨rfl, rfl, rfl, .refl _⟩

theorem sameFrame_passBlock (m : Machine) (x : UInt8) : SameFrame m (m.passBlock x) := by
  rw [passBlock_eq]
  exact ⟨rfl, rfl, rfl, .refl _⟩

theorem sameFrame_draw (m : Machine) (x y n : UInt8) : SameFrame m (m.draw x y n).state := by
  have hshape := m.screen.sameShape_plot false
    (spriteDots (m.reg y).toNat (m.reg x).toNat (m.sprite n))
  unfold draw
  dsimp only
  split <;>
    · rename_i hplot
      rw [hplot] at hshape
      exact ⟨rfl, rfl, rfl, hshape⟩

end Machine

namespace Instruction

open Machine

theorem sameFrame_execute (i : Instruction) (m : Machine) : SameFrame m (i.execute m).state := by
  cases i with
  | clearScreen => exact ⟨rfl, rfl, rfl, m.screen.sameShape_clear⟩
  | ret =>
    simp only [execute]
    split <;> exact ⟨rfl, rfl, rfl, .refl _⟩
  | draw x y n => exact m.sameFrame_draw x y n
  | waitKey x =>
    simp only [execute, awaitKey]
    split <;> exact ⟨rfl, rfl, rfl, .refl _⟩
  | storeDecimal x => exact m.sameFrame_writeBytes _ _
  | storeRegs x => exact (m.sameFrame_writeBytes _ _).trans (sameFrame_passBlock _ x)
  | loadRegs x => exact (m.sameFrame_readRegisters _ _).trans (sameFrame_passBlock _ x)
  | _ => exact ⟨rfl, rfl, rfl, .refl _⟩

/-! ## Instructions that fail -/

/-- On a screen that has pixels only a return without a call and the instructions of the extended
display fail. -/
theorem execute_eq_error_iff {i : Instruction} {m : Machine} (hs : m.screen.WellFormed)
    {failure : Failure} :
    (i.execute m).result = .error failure ↔
      (i = .ret ∧ m.stack.frames = [] ∧ failure = .fault (.stackUnderflow "pop")) ∨
        (i.isExtended ∧ failure = .fault (.notImplemented i.mnemonic)) := by
  by_cases hextended : i.isExtended
  · have hresult : (i.execute m).result = .error (.fault (.notImplemented i.mnemonic)) := by
      obtain ⟨lines, rfl⟩ | rfl | rfl | rfl | rfl := isExtended_iff.mp hextended <;> rfl
    have hret : i ≠ .ret := by
      rintro rfl
      exact absurd hextended (by decide)
    rw [hresult]
    simp [hextended, hret, eq_comm]
  · simp only [hextended]
    cases i with
    | ret =>
      cases hframes : m.stack.frames with
      | nil => simp [execute, CallStack.pop, hframes, Outcome.refuse, eq_comm]
      | cons frame rest => simp [execute, CallStack.pop, hframes, Outcome.done]
    | draw x y n => simp [execute, Machine.draw, Screen.plot_eq hs, Outcome.done]
    | scrollDown | scrollRight | scrollLeft | lowRes | highRes => exact absurd rfl hextended
    | _ => simp [execute, Outcome.done]

/-- An instruction that fails changes nothing. -/
theorem state_execute_of_error {i : Instruction} {m : Machine} (hs : m.screen.WellFormed)
    {failure : Failure} (h : (i.execute m).result = .error failure) :
    (i.execute m).state = m := by
  obtain ⟨rfl, hframes, -⟩ | ⟨hextended, -⟩ := (execute_eq_error_iff hs).mp h
  · simp [execute, CallStack.pop, hframes, Outcome.refuse]
  · obtain ⟨lines, rfl⟩ | rfl | rfl | rfl | rfl := isExtended_iff.mp hextended <;> rfl

end Instruction

end Chip8
