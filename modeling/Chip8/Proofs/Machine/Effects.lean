import Chip8.Machine.Operation
import Chip8.Proofs.Machine.Frame
import Chip8.Proofs.Outcome

/-!
# What an instruction changes

What no instruction changes is the frame of `Chip8.Proofs.Machine.Frame`.  Of the rest most parts are
changed by few instructions.

* `Instruction.sameControl_execute`: the program counter, the call stack and the wait for a key are the
  business of the instructions that jump and of the one that waits.  From this, `pc_execute`,
  `stack_execute` and `blocked_execute` say for each of the three which instructions change it.
* `Machine.Lasting`: a relation that no instruction breaks, and nothing else that a step does.  Steps,
  looks ahead and cycles keep it (`Lasting.step`, `Lasting.peek`, `Lasting.cycle`, `Lasting.cycles`).
-/

namespace Chip8

namespace Machine

/-- The machines agree in what decides where a program goes on: the program counter, the call stack
and the note that the machine waits for a key. -/
structure SameControl (m m' : Machine) : Prop where
  pc : m'.pc = m.pc
  stack : m'.stack = m.stack
  blocked : m'.blocked = m.blocked

end Machine

namespace Instruction

/-! ## Control -/

/-- An instruction that neither jumps nor waits for a key leaves control alone. -/
theorem sameControl_execute {i : Instruction} (hjump : i.isJump = false)
    (hwait : ∀ x, i ≠ .waitKey x) (m : Machine) : m.SameControl (i.execute m).state := by
  cases i with
  | ret | jump | call | jumpOffset | skipEqByte | skipNeByte | skipEqReg | skipNeReg | skipKeyDown
  | skipKeyUp => cases hjump
  | waitKey x => exact absurd rfl (hwait x)
  | draw x y n =>
    simp only [execute, Machine.draw]
    split <;> exact ⟨rfl, rfl, rfl⟩
  | storeDecimal x =>
    simp only [execute, Machine.writeBytes_eq]
    exact ⟨rfl, rfl, rfl⟩
  | storeRegs x =>
    simp only [execute, Machine.passBlock_eq, Machine.writeBytes_eq]
    exact ⟨rfl, rfl, rfl⟩
  | loadRegs x =>
    simp only [execute, Machine.passBlock_eq, Machine.readRegisters_eq]
    exact ⟨rfl, rfl, rfl⟩
  | _ => exact ⟨rfl, rfl, rfl⟩

/-- An instruction that does not jump leaves the program counter where it is. -/
theorem pc_execute {i : Instruction} (hjump : i.isJump = false) (m : Machine) :
    (i.execute m).state.pc = m.pc := by
  by_cases hwait : ∃ x, i = .waitKey x
  · obtain ⟨x, rfl⟩ := hwait
    simp only [execute, Machine.awaitKey]
    split <;> rfl
  · exact (sameControl_execute hjump (fun x hx => hwait ⟨x, hx⟩) m).pc

/-- Only calls and returns change the call stack. -/
theorem stack_execute {i : Instruction} (hcall : ∀ addr, i ≠ .call addr) (hret : i ≠ .ret)
    (m : Machine) : (i.execute m).state.stack = m.stack := by
  cases i with
  | call addr => exact absurd rfl (hcall addr)
  | ret => exact absurd rfl hret
  | jump | jumpOffset | skipEqByte | skipNeByte | skipEqReg | skipNeReg | skipKeyDown
  | skipKeyUp => rfl
  | waitKey x =>
    simp only [execute, Machine.awaitKey]
    split <;> rfl
  | _ => exact (sameControl_execute rfl (by simp) m).stack

/-- Only the instruction that waits for a key begins or ends a wait. -/
theorem blocked_execute {i : Instruction} (hi : ∀ x, i ≠ .waitKey x) (m : Machine) :
    (i.execute m).state.blocked = m.blocked := by
  cases i with
  | ret =>
    simp only [execute]
    split <;> rfl
  | jump | call | jumpOffset | skipEqByte | skipNeByte | skipEqReg | skipNeReg | skipKeyDown
  | skipKeyUp => rfl
  | waitKey x => exact absurd rfl (hi x)
  | _ => exact (sameControl_execute rfl hi m).blocked

end Instruction

namespace Machine

/-! ## Relations that last -/

/-- A relation between a machine and a later one that no instruction breaks, and no change of what a
step keeps track of. -/
structure Lasting (R : Machine → Machine → Prop) : Prop where
  refl (m : Machine) : R m m
  trans {m m' m'' : Machine} (h : R m m') (h' : R m' m'') : R m m''
  execute (i : Instruction) (m : Machine) : R m (i.execute m).state
  track (m : Machine) (pc : UInt16) (exitCode : Option UInt32) (decoder : Decoder)
    (executing : Bool) : R m { m with pc, exitCode, decoder, executing }

namespace Lasting

variable {R : Machine → Machine → Prop} (h : Lasting R)

include h

theorem decode (m : Machine) (w : Opcode) : R m (m.decode w).state :=
  h.track m m.pc m.exitCode (m.decoder.decode w).1 m.executing

theorem moveOn (m : Machine) (i : Instruction) : R m (m.moveOn i) := by
  unfold Machine.moveOn
  split
  · exact h.refl m
  · exact h.track m (m.pc + 2) m.exitCode m.decoder m.executing

theorem perform (m : Machine) (i : Instruction) : R m (m.perform i).state := by
  have hmark (m : Machine) (executing : Bool) : R m { m with executing } :=
    h.track m m.pc m.exitCode m.decoder executing
  have hexecute := h.trans (hmark m true) (h.execute i { m with executing := true })
  unfold Machine.perform
  generalize i.execute { m with executing := true } = outcome at hexecute ⊢
  obtain ⟨m', (fault | _) | _⟩ := outcome
  · exact h.trans hexecute (hmark m' false)
  · exact hexecute
  · exact h.trans (h.trans hexecute (hmark m' false)) (h.moveOn { m' with executing := false } i)

theorem step (m : Machine) : R m m.step.state := by
  unfold Machine.step
  split
  · exact h.refl m
  split
  · exact h.refl m
  cases m.nextOpcode with
  | none => exact h.track m m.pc (some 0) m.decoder m.executing
  | some w =>
    have hdecode := h.decode m w
    dsimp only
    generalize m.decode w = outcome at hdecode ⊢
    obtain ⟨m', _ | i⟩ := outcome
    · exact hdecode
    · exact h.trans hdecode (h.perform m' i)

theorem peek (m : Machine) : R m m.peek.state := by
  unfold Machine.peek
  cases m.nextOpcode with
  | none => exact h.refl m
  | some w =>
    have hdecode := h.decode m w
    dsimp only
    generalize m.decode w = outcome at hdecode ⊢
    obtain ⟨m', _ | i⟩ := outcome
    · exact hdecode
    · exact hdecode

theorem cycle (inspect : Bool) (m : Machine) : R m (m.cycle inspect).state := by
  unfold Machine.cycle
  split
  · have hpeek := h.peek m
    generalize m.peek = outcome at hpeek ⊢
    obtain ⟨m', _ | next⟩ := outcome
    · exact hpeek
    · exact h.trans hpeek (h.step m')
  · exact h.step m

theorem cycles (inspect : Bool) (n : Nat) (m : Machine) : R m (m.cycles inspect n).state :=
  Outcome.repeatUntil_related h.refl h.trans (h.cycle inspect) n m

end Lasting

end Machine

end Chip8
