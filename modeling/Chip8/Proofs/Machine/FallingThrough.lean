import Chip8.Proofs.Machine.Effects
import Chip8.Proofs.Machine.Loading

/-!
# Running off the end of memory

After an instruction that falls through the program goes on behind it, at an address that is two or
four higher.  If the two bytes there are not both in memory then the next step halts the machine, as
long as the address fits into the sixteen bits of the program counter.  In a memory of nearly 64 KiB it
may not, and then the counter stands at the start of memory.

* `Instruction.execute_of_skipTest?`: an instruction that skips does so by its test.
* `Machine.FallsThrough`: a step executes an instruction that falls through, and the address behind it.
* `Machine.FallsThrough.step`: where the program counter then stands.
* `Machine.halts_iff`: the machines that a step halts.
-/

namespace Chip8

namespace Instruction

/-- The condition under which an instruction skips the next one, if it is of this kind. -/
def skipTest? (i : Instruction) (m : Machine) : Option Bool :=
  match i with
  | skipEqByte x byte => some (m.reg x == byte)
  | skipNeByte x byte => some (m.reg x != byte)
  | skipEqReg x y => some (m.reg x == m.reg y)
  | skipNeReg x y => some (m.reg x != m.reg y)
  | skipKeyDown x => some (m.keypad.isPressed (m.reg x))
  | skipKeyUp x => some (!m.keypad.isPressed (m.reg x))
  | _ => none

/-- An instruction that may skip the next one does nothing but move the program counter. -/
theorem execute_of_skipTest? {i : Instruction} {m : Machine} {test : Bool}
    (h : i.skipTest? m = some test) : i.isJump ∧ i.execute m = .done (m.skipIf test) () := by
  cases i with
  | skipEqByte | skipNeByte | skipEqReg | skipNeReg | skipKeyDown | skipKeyUp =>
    cases h
    exact ⟨rfl, rfl⟩
  | _ => cases h

end Instruction

namespace Machine

/-- A step of the machine executes an instruction that falls through: one that does not jump and does
not leave the machine waiting for a key, or one that may skip the next.  The address behind it is
counted on past the sixteen bits of the program counter. -/
inductive FallsThrough (m : Machine) : Nat → Prop
  | plain {w : Opcode} {i : Instruction} (hrunning : m.exitCode = none)
      (hopcode : m.nextOpcode = some w) (hdecode : w.decode = .ok i) (hjump : i.isJump = false)
      (hresult : m.step.result = .ok ()) (hblocked : m.step.state.blocked = false) :
      FallsThrough m (m.pc.toNat + 2)
  | skip {w : Opcode} {i : Instruction} {test : Bool} (hrunning : m.exitCode = none)
      (hopcode : m.nextOpcode = some w) (hdecode : w.decode = .ok i)
      (htest : i.skipTest? m = some test) :
      FallsThrough m (m.pc.toNat + if test then 4 else 2)

/-! ## Halting -/

/-- No program goes on where the two bytes at the program counter are not both in memory. -/
theorem nextOpcode_of_le {m : Machine} (h : m.memory.size ≤ m.pc.toNat + 1) :
    m.nextOpcode = none := by
  rw [Option.eq_none_iff_forall_ne_some]
  intro w hopcode
  obtain ⟨_, _, -, hlow, -⟩ := nextOpcode_eq_some_iff.mp hopcode
  obtain ⟨hlt, -⟩ := Array.getElem?_eq_some_iff.mp hlow
  omega

/-- Where the two bytes at the program counter are in memory the program ends at two zeroes. -/
theorem nextOpcode_eq_none_iff {m : Machine} (h : m.pc.toNat + 1 < m.memory.size) :
    m.nextOpcode = none ↔
      m.memory[m.pc.toNat]? = some 0 ∧ m.memory[m.pc.toNat + 1]? = some 0 := by
  have hhigh := Array.getElem?_eq_getElem (Nat.lt_of_succ_lt h)
  have hlow := Array.getElem?_eq_getElem h
  rw [Option.eq_none_iff_forall_ne_some, hhigh, hlow, Option.some.injEq, Option.some.injEq]
  constructor
  · intro hnone
    refine Classical.byContradiction fun hnonzero => ?_
    exact hnone _ (nextOpcode_eq_some_iff.mpr ⟨_, _, hhigh, hlow, rfl, hnonzero⟩)
  · intro hzero w hopcode
    obtain ⟨high, low, hhigh', hlow', -, hnonzero⟩ := nextOpcode_eq_some_iff.mp hopcode
    rw [hhigh, Option.some.injEq] at hhigh'
    rw [hlow, Option.some.injEq] at hlow'
    exact hnonzero ⟨hhigh' ▸ hzero.1, hlow' ▸ hzero.2⟩

/-- A step halts a running machine exactly where its program ends. -/
theorem halts_iff {m : Machine} (h : m.Sound) (hrunning : m.exitCode = none) :
    m.step = .done { m with exitCode := some 0 } () ↔ m.nextOpcode = none := by
  have hnot := hasHalted_eq_false_iff.mpr hrunning
  constructor
  · intro hhalts
    have hexit : m.step.state.exitCode ≠ m.exitCode := by
      rw [hhalts, hrunning]
      simp [Outcome.done]
    cases h.stepped with
    | halted hhalted _ => rw [hnot] at hhalted; cases hhalted
    | halts _ hopcode _ => exact hopcode
    | unknown w _ _ _ hstep => rw [hstep] at hexit; exact absurd rfl hexit
    | refused w i fault _ _ _ _ hstep => rw [hstep] at hexit; exact absurd rfl hexit
    | performed w i m' _ _ _ hexecute hstep =>
      have hkept := i.exitCode_execute m
      rw [hexecute] at hkept
      rw [hstep, moveOn_eq] at hexit
      exact absurd hkept hexit
  · intro hopcode
    simp only [h.step_of_running hrunning, hopcode]

/-! ## Falling through -/

namespace FallsThrough

variable {m : Machine} {next : Nat}

/-- An instruction that falls through leaves the machine running, with the program counter at the
address behind the instruction, as far as sixteen bits can tell. -/
theorem step (h : m.FallsThrough next) (hm : m.Sound) :
    ∃ m', m.step = .done m' () ∧ m'.Sound ∧ m'.exitCode = none ∧
      m'.memory.size = m.memory.size ∧ m'.pc.toNat = next % 65536 := by
  have hsound {m' : Machine} (hstep : m.step = .done m' ()) : m'.Sound := by
    have hnext := hm.step
    rwa [hstep] at hnext
  cases h with
  | @plain w i hrunning hopcode hdecode hjump hresult hblocked =>
    obtain ⟨m', hexecute⟩ | ⟨fault, hexecute⟩ := execute_cases i hm.screen
    · have hstep := hm.step_of_execute hrunning hopcode hdecode hexecute
      have hframe := i.sameFrame_execute m
      have hpc := Instruction.pc_execute hjump m
      have hexit := i.exitCode_execute m
      rw [hexecute] at hframe hpc hexit
      rw [hstep, moveOn_eq] at hblocked
      have hmoved : (m'.moveOn i).pc = m.pc + 2 := by
        rw [moveOn_eq, show m'.blocked = false from hblocked, hjump, show m'.pc = m.pc from hpc]
        rfl
      refine ⟨_, hstep, hsound hstep, ?_, ?_, ?_⟩
      · rw [moveOn_eq]
        exact hexit.trans hrunning
      · rw [moveOn_eq]
        exact hframe.size_memory
      · show (m'.moveOn i).pc.toNat = _
        rw [hmoved, UInt16.toNat_add]
        rfl
    · rw [hm.step_of_refuse hrunning hopcode hdecode hexecute] at hresult
      cases hresult
  | @skip w i test hrunning hopcode hdecode htest =>
    obtain ⟨hjump, hexecute⟩ := Instruction.execute_of_skipTest? htest
    have hstep := hm.step_of_execute hrunning hopcode hdecode hexecute
    rw [moveOn, if_pos (by simp [hjump])] at hstep
    refine ⟨_, hstep, hsound hstep, hrunning, rfl, ?_⟩
    show (m.pc + if test then 4 else 2).toNat = _
    rw [UInt16.toNat_add]
    cases test <;> rfl

/-- The two bytes of the instruction itself are in memory. -/
theorem lt_size_memory (h : m.FallsThrough next) :
    m.pc.toNat + 1 < m.memory.size ∧ m.pc.toNat + 2 ≤ next ∧ next ≤ m.pc.toNat + 4 := by
  have hinside {w : Opcode} (hopcode : m.nextOpcode = some w) : m.pc.toNat + 1 < m.memory.size := by
    obtain ⟨_, _, -, hlow, -⟩ := nextOpcode_eq_some_iff.mp hopcode
    exact (Array.getElem?_eq_some_iff.mp hlow).1
  cases h with
  | plain _ hopcode => exact ⟨hinside hopcode, by omega, by omega⟩
  | @skip _ _ test _ hopcode =>
    refine ⟨hinside hopcode, ?_, ?_⟩ <;> cases test <;> simp

end FallsThrough

/-! ## The end of memory -/

/-- An instruction that has been loaded into a new machine and falls through. -/
theorem Fresh.fallsThrough_load {m m' : Machine} {config : Config} (h : m.Fresh config)
    {program : Array UInt8} (hfits : config.loadAddress.toNat + program.size ≤ config.memorySize)
    {high low : UInt8} (hhigh : program[0]? = some high) (hlow : program[1]? = some low)
    (hnonzero : ¬ (high = 0 ∧ low = 0)) {i : Instruction}
    (hdecode : (Opcode.ofBytes high low).decode = .ok i) (hjump : i.isJump = false)
    (hexecute : i.execute (m.load program).state = .done m' ()) (hfree : m'.blocked = false) :
    (m.load program).state.FallsThrough (config.loadAddress.toNat + 2) := by
  have hstep := h.step_load hfits hhigh hlow hnonzero hdecode hexecute
  have hopcode := h.nextOpcode_load hfits hhigh hlow hnonzero
  have hload := h.load hfits
  have hpc : (m.load program).state.pc = config.loadAddress := by rw [hload]; rfl
  have hrunning : (m.load program).state.exitCode = none := by rw [hload]; rfl
  rw [← hpc]
  refine .plain hrunning hopcode hdecode hjump ?_ ?_
  · rw [hstep]
    rfl
  · rw [hstep, moveOn_eq]
    exact hfree

/-- When a program runs off the end of memory the next step halts the machine and does nothing else, if
the address behind the last instruction fits into sixteen bits.  If it does not, which takes a memory of
at least 65534 bytes, the program counter stands at one of the first three bytes of memory, and the
next step halts the machine only if there are two zeroes. -/
theorem halts_off_the_end_iff {m : Machine} (hm : m.Reachable) {next : Nat}
    (h : m.FallsThrough next) (hend : ¬ next + 1 < m.memory.size) :
    ∃ m', m.step = .done m' () ∧ m'.exitCode = none ∧
      (m'.step = .done { m' with exitCode := some 0 } () ↔
        next < 65536 ∨
          (m'.memory[next - 65536]? = some 0 ∧ m'.memory[next - 65536 + 1]? = some 0)) ∧
      (65536 ≤ next → 65534 ≤ m.memory.size ∧ m'.pc.toNat = next - 65536 ∧ m'.pc.toNat ≤ 2) := by
  obtain ⟨m', hstep, hsound, hrunning, hsize, hpc⟩ := h.step hm.sound
  obtain ⟨hinside, hlow, hhigh⟩ := h.lt_size_memory
  have hlimit := hm.sound.size_memory_le
  refine ⟨m', hstep, hrunning, ?_, fun hwraps => by omega⟩
  rw [halts_iff hsound hrunning]
  by_cases hfits : next < 65536
  · exact iff_of_true (nextOpcode_of_le (by omega)) (.inl hfits)
  · have hwrapped : m'.pc.toNat = next - 65536 := by omega
    rw [nextOpcode_eq_none_iff (by omega), hwrapped]
    exact ⟨.inr, fun hzero => hzero.resolve_left hfits⟩

/-- A program of one instruction in the last two bytes of a small memory. -/
theorem halts_off_the_end_of_small_memory :
    ∃ m : Machine, m.Reachable ∧ m.memory.size = 96 ∧ m.FallsThrough 96 ∧
      ∃ m', m.step = .done m' () ∧ m'.step = .done { m' with exitCode := some 0 } () := by
  obtain ⟨m, hnew⟩ :
      ∃ m, Machine.new { memorySize := 96, loadAddress := 94 } (.replicate 8 0) = .ok m := ⟨_, rfl⟩
  have hfresh := fresh_of_new hnew
  have hreached : (m.load #[0x60, 0x01]).state.Reachable :=
    .apply (.load #[0x60, 0x01]) (.new hnew) (show 2 < arrayLimit by decide)
  have hload : m.load #[0x60, 0x01] = _ := hfresh.load (by decide)
  have hfalls : (m.load #[0x60, 0x01]).state.FallsThrough 96 :=
    hfresh.fallsThrough_load (by decide) rfl rfl (by decide)
      (Opcode.decode_of_nibbles_eq (i := .loadByte 0 1) rfl) rfl rfl (by rw [hload]; rfl)
  have hsize : (m.load #[0x60, 0x01]).state.memory.size = 96 := by
    rw [hreached.sound.size_memory, hload]
    exact congrArg Config.memorySize hfresh.config_eq
  obtain ⟨m', hstep, -, hhalts, -⟩ := halts_off_the_end_iff hreached hfalls (by rw [hsize]; decide)
  exact ⟨_, hreached, hsize, hfalls, m', hstep, hhalts.mpr (.inl (by decide))⟩

/-- In a memory of 64 KiB a program that runs off the end goes on at the start, where the font does not
decode. -/
theorem goes_on_at_start_of_full_memory :
    ∃ m m' : Machine, m.Reachable ∧ m.memory.size = 65536 ∧ m.FallsThrough 65536 ∧
      m.step = .done m' () ∧ m'.pc = 0 ∧ m'.step.state.exitCode = none ∧
      m'.step.result = .error (.fault (.unknownOpcode 0xF090)) := by
  obtain ⟨m, hnew⟩ :
      ∃ m, Machine.new { memorySize := 65536, loadAddress := 65534 } (.replicate 8 0) = .ok m :=
    ⟨_, rfl⟩
  have hfresh := fresh_of_new hnew
  have hreached : (m.load #[0x60, 0x01]).state.Reachable :=
    .apply (.load #[0x60, 0x01]) (.new hnew) (show 2 < arrayLimit by decide)
  have hdecode := Opcode.decode_of_nibbles_eq (w := .ofBytes 0x60 0x01) (i := .loadByte 0 1) rfl
  have hload : m.load #[0x60, 0x01] = _ := hfresh.load (by decide)
  have hfalls : (m.load #[0x60, 0x01]).state.FallsThrough 65536 :=
    hfresh.fallsThrough_load (by decide) rfl rfl (by decide) hdecode rfl rfl (by rw [hload]; rfl)
  have hstep : (m.load #[0x60, 0x01]).state.step = _ :=
    hfresh.step_load (by decide) rfl rfl (by decide) hdecode rfl
  have hsize : (m.load #[0x60, 0x01]).state.memory.size = 65536 := by
    rw [hreached.sound.size_memory, hload]
    exact congrArg Config.memorySize hfresh.config_eq
  obtain ⟨m', hstep', hsound, hrunning, -, hpc⟩ := hfalls.step hreached.sound
  have hstart : m'.pc = 0 := UInt16.toNat_inj.mp hpc
  have hmemory : m'.memory = (m.load #[0x60, 0x01]).state.memory := by
    have hsame : m' = _ := congrArg Outcome.state (hstep'.symm.trans hstep)
    rw [hsame, moveOn_eq]
    rfl
  have hopcode : m'.nextOpcode = some (.ofBytes 0xF0 0x90) := by
    refine nextOpcode_eq_some_iff.mpr ⟨0xF0, 0x90, ?_, ?_, rfl, by decide⟩ <;> rw [hstart, hmemory]
    · exact hfresh.getElem?_load (by decide) (by decide)
    · exact hfresh.getElem?_load (by decide) (by decide)
  have hunknown : (Opcode.ofBytes 0xF0 0x90).decode = .error (.unknownOpcode 0xF090) := by
    decide +kernel
  have hnext := hsound.step_of_decode_eq_error hrunning hopcode hunknown
  refine ⟨_, m', hreached, hsize, hfalls, hstep', hstart, ?_, ?_⟩ <;> rw [hnext]
  · exact hrunning
  · rfl

end Machine

end Chip8
