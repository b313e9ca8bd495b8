import Chip8.Proofs.Machine.Refusals
import Chip8.Proofs.Reference.Opcodes
import Chip8.Proofs.Reference.View

/-!
# The machine does what the reference interpreter does

* `Machine.run_of_ok`, `Machine.run_of_error` and `Machine.run_of_unknown`: an instruction that is
  executed, one that fails, and an opcode that is none.
* `Machine.view_step`: one step of the machine is one step of the reference interpreter.
-/

namespace Chip8

open Reference

namespace Machine

/-! ## Instructions that are executed -/

/-- After an instruction that chooses where to go on. -/
theorem run_jump {m : Machine} {w : Nat} {i : Instruction} {s : State} (hi : i.isJump = true)
    (hrun : m.view.run w = .ok s) (hstate : (i.execute m).state.view = s) :
    m.view.run w = .ok ((i.execute m).state.moveOn i).view := by
  rw [hrun, moveOn_of_isJump _ hi, hstate]

/-- After an instruction that goes on behind itself. -/
theorem run_next {m : Machine} {w : Nat} {i : Instruction} {s : State} (hi : i.isJump = false)
    (hrun : m.view.run w = .ok s.next) (hstate : (i.execute m).state.view = s) :
    m.view.run w = .ok ((i.execute m).state.moveOn i).view := by
  rw [hrun, view_moveOn _ hi, hstate]

/-- An instruction that is executed does what the reference interpreter does. -/
theorem run_of_ok {m : Machine} (h : m.Sound) {w : Opcode} {i : Instruction}
    (hdecode : w.decode = .ok i) (hok : (i.execute m).result = .ok ()) :
    m.view.run w.toNat = .ok ((i.execute m).state.moveOn i).view := by
  -- In each case the nibbles tell how the reference interpreter branches, and what is left is that
  -- both sides make the same state.
  have hnibbles := Opcode.nibbles_of_decode_eq hdecode
  cases i with
  | clearScreen =>
    have hw : w.toNat = 0x00E0 := by
      simp only [Instruction.nibbles, List.cons.injEq] at hnibbles
      omega
    rw [hw]
    exact run_next rfl rfl m.view_clear
  | ret =>
    rw [Opcode.decode_eq_ret_iff.mp hdecode]
    cases hframes : m.stack.frames with
    | nil => simp [Instruction.execute, CallStack.pop, hframes, Outcome.refuse] at hok
    | cons address frames =>
      have hstack : m.view.stack = address.toNat :: frames.map UInt16.toNat :=
        congrArg (List.map UInt16.toNat) hframes
      refine run_jump rfl (State.run_ret_of_cons hstack) ?_
      simp only [Instruction.execute, CallStack.pop, hframes]
      rfl
  | scrollDown n => cases hok
  | scrollRight => cases hok
  | scrollLeft => cases hok
  | lowRes => cases hok
  | highRes => cases hok
  | jump addr =>
    obtain ⟨_, _, _, _, hrun⟩ := m.view.run_of_address hnibbles
    exact run_jump rfl hrun rfl
  | call addr =>
    obtain ⟨_, _, _, _, hrun⟩ := m.view.run_of_address hnibbles
    refine run_jump rfl hrun ?_
    have hreturn : (m.pc + 2).toNat = (m.view.pc + 2) % 65536 := UInt16.toNat_add m.pc 2
    rw [← hreturn]
    rfl
  | skipEqByte x byte =>
    obtain ⟨hx, _, _, _, hrun⟩ := m.view.run_of_byte hnibbles
    refine run_jump rfl hrun ?_
    rw [view_v hx, ← beq_eq_decide]
    exact m.view_skipIf (m.reg x == byte)
  | skipNeByte x byte =>
    obtain ⟨hx, _, _, _, hrun⟩ := m.view.run_of_byte hnibbles
    refine run_jump rfl hrun ?_
    rw [view_v hx, ← bne_eq_decide]
    exact m.view_skipIf (m.reg x != byte)
  | skipEqReg x y =>
    obtain ⟨hx, hy, -, hrun⟩ := m.view.run_of_nibbles hnibbles
    refine run_jump rfl hrun ?_
    rw [view_v hx, view_v hy, ← beq_eq_decide]
    exact m.view_skipIf (m.reg x == m.reg y)
  | loadByte x byte =>
    obtain ⟨hx, _, _, _, hrun⟩ := m.view.run_of_byte hnibbles
    exact run_next rfl hrun (view_setReg hx byte)
  | addByte x byte =>
    obtain ⟨hx, _, _, _, hrun⟩ := m.view.run_of_byte hnibbles
    refine run_next rfl hrun ?_
    rw [view_v hx, ← toNat_add_mod]
    exact view_setReg hx (m.reg x + byte)
  | copy x y =>
    obtain ⟨hx, hy, -, hrun⟩ := m.view.run_of_nibbles hnibbles
    refine run_next rfl hrun ?_
    rw [view_v hy]
    exact view_setReg hx (m.reg y)
  | or x y =>
    obtain ⟨hx, hy, -, hrun⟩ := m.view.run_of_nibbles hnibbles
    refine run_next rfl hrun ?_
    rw [view_v hx, view_v hy, ← UInt8.toNat_or]
    exact view_setReg hx (m.reg x ||| m.reg y)
  | and x y =>
    obtain ⟨hx, hy, -, hrun⟩ := m.view.run_of_nibbles hnibbles
    refine run_next rfl hrun ?_
    rw [view_v hx, view_v hy, ← UInt8.toNat_and]
    exact view_setReg hx (m.reg x &&& m.reg y)
  | xor x y =>
    obtain ⟨hx, hy, -, hrun⟩ := m.view.run_of_nibbles hnibbles
    refine run_next rfl hrun ?_
    rw [view_v hx, view_v hy, ← UInt8.toNat_xor]
    exact view_setReg hx (m.reg x ^^^ m.reg y)
  | addReg x y =>
    obtain ⟨hx, hy, -, hrun⟩ := m.view.run_of_nibbles hnibbles
    refine run_next rfl hrun ?_
    rw [view_v hx, view_v hy, ← toNat_add_mod]
    exact view_setReg_setFlag hx (m.reg x + m.reg y) _
  | subReg x y =>
    obtain ⟨hx, hy, -, hrun⟩ := m.view.run_of_nibbles hnibbles
    refine run_next rfl hrun ?_
    rw [view_v hx, view_v hy, ← toNat_sub_mod]
    exact view_setReg_setFlag hx (m.reg x - m.reg y) _
  | shiftRight x y =>
    obtain ⟨hx, hy, -, hrun⟩ := m.view.run_of_nibbles hnibbles
    refine run_next rfl hrun ?_
    rw [view_shiftOperand hx hy, ← toNat_shiftRight_one, ← testBit_zero_eq]
    exact view_setReg_setFlag hx (m.shiftOperand x y >>> 1) _
  | subFrom x y =>
    obtain ⟨hx, hy, -, hrun⟩ := m.view.run_of_nibbles hnibbles
    refine run_next rfl hrun ?_
    rw [view_v hx, view_v hy, ← toNat_sub_mod]
    exact view_setReg_setFlag hx (m.reg y - m.reg x) _
  | shiftLeft x y =>
    obtain ⟨hx, hy, -, hrun⟩ := m.view.run_of_nibbles hnibbles
    refine run_next rfl hrun ?_
    rw [view_shiftOperand hx hy, ← toNat_shiftLeft_one, ← testBit_seven_eq]
    exact view_setReg_setFlag hx (m.shiftOperand x y <<< 1) _
  | skipNeReg x y =>
    obtain ⟨hx, hy, -, hrun⟩ := m.view.run_of_nibbles hnibbles
    refine run_jump rfl hrun ?_
    rw [view_v hx, view_v hy, ← bne_eq_decide]
    exact m.view_skipIf (m.reg x != m.reg y)
  | loadIndex addr =>
    obtain ⟨_, _, _, _, hrun⟩ := m.view.run_of_address hnibbles
    exact run_next rfl hrun rfl
  | jumpOffset addr =>
    obtain ⟨_, _, _, _, hrun⟩ := m.view.run_of_address hnibbles
    refine run_jump rfl hrun ?_
    have hv := view_v (m := m) (r := 0) (by decide)
    have htarget : (addr + (m.reg 0).toUInt16).toNat = (addr.toNat + m.view.v 0) % 65536 := by
      rw [UInt16.toNat_add, UInt8.toNat_toUInt16]
      exact congrArg (fun v0 => (addr.toNat + v0) % 65536) hv.symm
    rw [← htarget]
    rfl
  | random x byte =>
    obtain ⟨hx, _, _, _, hrun⟩ := m.view.run_of_byte hnibbles
    refine run_next rfl hrun ?_
    have hset := view_setReg (m := { m with random := m.random.next.2 }) hx
      (m.random.next.1 &&& byte)
    rw [view_random, UInt8.toNat_and] at hset
    exact hset
  | draw x y n =>
    obtain ⟨hx, hy, -, hrun⟩ := m.view.run_of_nibbles hnibbles
    rw [hrun]
    exact congrArg Except.ok (view_draw h.screen hx hy).symm
  | skipKeyDown x =>
    obtain ⟨hx, -, -, hrun⟩ := m.view.run_of_nibbles hnibbles
    refine run_jump rfl hrun ?_
    rw [view_v hx, ← view_isPressed]
    exact m.view_skipIf (m.keypad.isPressed (m.reg x))
  | skipKeyUp x =>
    obtain ⟨hx, -, -, hrun⟩ := m.view.run_of_nibbles hnibbles
    refine run_jump rfl hrun ?_
    rw [view_v hx, ← view_isPressed]
    exact m.view_skipIf !(m.keypad.isPressed (m.reg x))
  | readDelay x =>
    obtain ⟨hx, -, -, hrun⟩ := m.view.run_of_nibbles hnibbles
    exact run_next rfl hrun (view_setReg hx m.delay.count)
  | waitKey x =>
    obtain ⟨hx, -, -, hrun⟩ := m.view.run_of_nibbles hnibbles
    rw [hrun]
    exact congrArg Except.ok (view_awaitKey hx).symm
  | setDelay x =>
    obtain ⟨hx, -, -, hrun⟩ := m.view.run_of_nibbles hnibbles
    refine run_next rfl hrun ?_
    rw [view_v hx]
    rfl
  | setSound x =>
    obtain ⟨hx, -, -, hrun⟩ := m.view.run_of_nibbles hnibbles
    refine run_next rfl hrun ?_
    rw [view_v hx]
    rfl
  | addIndex x =>
    obtain ⟨hx, -, -, hrun⟩ := m.view.run_of_nibbles hnibbles
    refine run_next rfl hrun ?_
    have hindex : (m.i + (m.reg x).toUInt16).toNat = (m.view.i + m.view.v x.toNat) % 65536 := by
      rw [UInt16.toNat_add, UInt8.toNat_toUInt16, view_v hx]
      rfl
    rw [← hindex]
    rfl
  | loadGlyph x =>
    obtain ⟨hx, -, -, hrun⟩ := m.view.run_of_nibbles hnibbles
    refine run_next rfl hrun ?_
    rw [view_v hx, ← Font.toNat_address]
    rfl
  | storeDecimal x =>
    obtain ⟨hx, -, -, hrun⟩ := m.view.run_of_nibbles hnibbles
    refine run_next rfl hrun ?_
    rw [view_v hx, ← map_digitByte_digits]
    exact view_writeBytes h.memory_pos m.i.toNat _
  | storeRegs x =>
    obtain ⟨hx, -, -, hrun⟩ := m.view.run_of_nibbles hnibbles
    refine run_next rfl hrun ?_
    have hwritten := view_writeBytes h.memory_pos m.i.toNat ((blockRegisters x).map m.reg)
    rw [map_reg_blockRegisters m hx] at hwritten
    exact (view_passBlock _ x).trans (congrArg (State.passBlock · x.toNat) hwritten)
  | loadRegs x =>
    obtain ⟨hx, -, -, hrun⟩ := m.view.run_of_nibbles hnibbles
    refine run_next rfl hrun ?_
    exact (view_passBlock _ x).trans
      (congrArg (State.passBlock · x.toNat) (view_readRegisters m hx))

/-! ## Instructions that fail and opcodes that are none -/

/-- An instruction that fails is refused by the reference interpreter with the same fault. -/
theorem run_of_error {m : Machine} (h : m.Sound) {w : Opcode} {i : Instruction} {fault : Fault}
    (hdecode : w.decode = .ok i) (herror : (i.execute m).result = .error (.fault fault)) :
    m.view.run w.toNat = .error fault := by
  obtain ⟨rfl, hframes, hfault⟩ | ⟨hextended, hfault⟩ :=
    (Instruction.execute_eq_error_iff h.screen).mp herror
  · cases hfault
    have hstack : m.view.stack = [] := congrArg (List.map UInt16.toNat) hframes
    rw [Opcode.decode_eq_ret_iff.mp hdecode, State.run_ret_of_nil hstack]
  · cases hfault
    rcases Opcode.decode_eq_extended_iff.mp ⟨i, hdecode, hextended, rfl⟩ with
      ⟨hw, hmnemonic⟩ | ⟨hw, hmnemonic⟩ | ⟨hw, hmnemonic⟩ | ⟨hw, hmnemonic⟩ | ⟨hw, hmnemonic⟩
    · have hop : w.toNat / 4096 = 0 := by omega
      have hrun : m.view.run w.toNat = m.view.runSystem w.toNat := by
        rw [State.run, hop]
        rfl
      rw [hrun, State.runSystem, if_neg (by omega), if_neg (by omega), if_pos hw, hmnemonic]
    · rw [hw, hmnemonic]
      rfl
    · rw [hw, hmnemonic]
      rfl
    · rw [hw, hmnemonic]
      rfl
    · rw [hw, hmnemonic]
      rfl

/-! ## Steps -/

/-- Where the program ends for the machine it ends for the reference interpreter. -/
theorem step_view_of_none {m : Machine} (hrunning : m.hasHalted = false)
    (hopcode : m.nextOpcode = none) :
    Reference.step m.view = ({ m.view with exit := some 0 }, .ok ()) := by
  have hexit := hasHalted_eq_false_iff.mp hrunning
  have hsize : m.view.size = m.memory.size := rfl
  have hpc : m.view.pc = m.pc.toNat := rfl
  rw [Reference.step, if_neg (by simp [view, hexit])]
  by_cases hend : m.view.size ≤ m.view.pc + 1
  · rw [if_pos hend]
  · have hhigh : m.pc.toNat < m.memory.size := by omega
    have hlow : m.pc.toNat + 1 < m.memory.size := by omega
    have hzero : m.memory[m.pc.toNat] = 0 ∧ m.memory[m.pc.toNat + 1] = 0 := by
      refine Classical.byContradiction fun hnonzero => ?_
      have hsome := nextOpcode_eq_some_iff.mpr
        ⟨_, _, Array.getElem?_eq_getElem hhigh, Array.getElem?_eq_getElem hlow, rfl, hnonzero⟩
      rw [hopcode] at hsome
      cases hsome
    have hword : 256 * m.view.memory m.view.pc + m.view.memory (m.view.pc + 1) = 0 := by
      simp [view, hhigh, hlow, hzero]
    rw [if_neg hend]
    exact if_pos hword

/-- The opcode of the machine is the opcode of the reference interpreter. -/
theorem step_view_of_some {m : Machine} (hrunning : m.hasHalted = false) {w : Opcode}
    (hopcode : m.nextOpcode = some w) :
    Reference.step m.view =
      match m.view.run w.toNat with
      | .ok s => (s, .ok ())
      | .error fault => (m.view, .error fault) := by
  obtain ⟨high, low, hhigh, hlow, rfl, hnonzero⟩ := nextOpcode_eq_some_iff.mp hopcode
  have hexit := hasHalted_eq_false_iff.mp hrunning
  obtain ⟨hlt, rfl⟩ := Array.getElem?_eq_some_iff.mp hhigh
  obtain ⟨hlt', rfl⟩ := Array.getElem?_eq_some_iff.mp hlow
  have hsize : m.view.size = m.memory.size := rfl
  have hpc : m.view.pc = m.pc.toNat := rfl
  have hword : 256 * m.view.memory m.view.pc + m.view.memory (m.view.pc + 1) =
      (Opcode.ofBytes m.memory[m.pc.toNat] m.memory[m.pc.toNat + 1]).toNat := by
    rw [Opcode.toNat_ofBytes]
    simp [view, hlt, hlt']
  have hword_ne : (Opcode.ofBytes m.memory[m.pc.toNat] m.memory[m.pc.toNat + 1]).toNat ≠ 0 := by
    rw [Opcode.toNat_ofBytes]
    intro hzero
    refine hnonzero ⟨UInt8.toNat_inj.mp ?_, UInt8.toNat_inj.mp ?_⟩ <;>
      simp only [UInt8.toNat_zero] <;> omega
  rw [Reference.step, if_neg (by simp [view, hexit]), if_neg (by omega), hword]
  exact if_neg hword_ne

/-- One step of the machine is one step of the reference interpreter. -/
theorem view_step {m : Machine} (h : m.Sound) :
    m.step.state.view = (Reference.step m.view).1 ∧
      m.step.result = (Reference.step m.view).2.mapError .fault := by
  cases h.stepped with
  | halted hhalted hstep =>
    have hexit : m.view.exit ≠ none := by
      simpa [hasHalted, view, Option.isSome_iff_ne_none] using hhalted
    rw [hstep, Reference.step, if_pos hexit]
    exact ⟨rfl, rfl⟩
  | halts hrunning hopcode hstep =>
    rw [hstep, step_view_of_none hrunning hopcode]
    exact ⟨rfl, rfl⟩
  | unknown w hrunning hopcode hdecode hstep =>
    have hunspelled : w.Unspelled := fun i hnibbles => by
      rw [Opcode.decode_of_nibbles_eq hnibbles] at hdecode
      cases hdecode
    rw [hstep, step_view_of_some hrunning hopcode, State.run_of_unspelled m.view hunspelled]
    exact ⟨rfl, rfl⟩
  | refused w i fault hrunning hopcode hdecode hexecute hstep =>
    have hrun := run_of_error h hdecode (congrArg Outcome.result hexecute)
    rw [hstep, step_view_of_some hrunning hopcode, hrun]
    exact ⟨rfl, rfl⟩
  | performed w i m' hrunning hopcode hdecode hexecute hstep =>
    have hrun := run_of_ok h hdecode (congrArg Outcome.result hexecute)
    rw [hexecute] at hrun
    rw [hstep, step_view_of_some hrunning hopcode, hrun]
    exact ⟨rfl, rfl⟩

/-! ## Runs -/

/-- What the host learns from a step that the reference interpreter makes. -/
def stepAnswer (result : Except Fault Unit) : Except Failure Answer :=
  (result.mapError .fault).map fun () => .done

/-- Steps of the machine are steps of the reference interpreter. -/
theorem view_run_steps {m : Machine} (h : m.Sound) (n : Nat) :
    (Operation.run (List.replicate n .step) m).view = Reference.after n m.view ∧
      Operation.answers (List.replicate n .step) m =
        (Reference.answers n m.view).map stepAnswer := by
  induction n generalizing m with
  | zero => exact ⟨rfl, rfl⟩
  | succ n ih =>
    obtain ⟨hstate, hresult⟩ := view_step h
    obtain ⟨hrest, hanswers⟩ := ih h.step
    rw [hstate] at hrest hanswers
    refine ⟨hrest, ?_⟩
    have hfirst : (Operation.step.apply m).result = stepAnswer (Reference.step m.view).2 := by
      rw [Operation.apply, Outcome.toAnswer, hresult]
      rfl
    rw [List.replicate_succ, Operation.answers, hfirst, Reference.answers, List.map_cons]
    exact congrArg _ hanswers

/-! ## The start of a program -/

/-- A byte of the image, by its address. -/
theorem getD_image (size : Nat) (program : Array UInt8) (origin : Nat)
    (hfits : origin + program.size ≤ size) (hfont : Font.size ≤ size) (address : Nat) :
    (image size program origin).getD address 0 =
      if origin ≤ address ∧ address < origin + program.size then
        program.getD (address - origin) 0
      else Font.bytes.getD address 0 := by
  by_cases hlt : address < size
  · simp [image, hlt]
  · have hbehind : ¬ (origin ≤ address ∧ address < origin + program.size) := by omega
    have hfontBehind : Font.bytes.size ≤ address := by
      rw [Checked.size_font]
      omega
    rw [if_neg hbehind]
    simp [image, Array.getD, hlt, hfontBehind]

/-- The machine with other keys down and another source of random bytes. -/
def equipped (m : Machine) (keypad : Keypad) (random : Random) : Machine :=
  { m with keypad, random }

theorem Sound.equipped {m : Machine} (h : m.Sound) (keypad : Keypad) (random : Random) :
    (m.equipped keypad random).Sound :=
  { h with }

theorem zero_registers (r : Nat) : (Registers.zero[r]?.getD 0).toNat = 0 := by
  by_cases hr : r < 16 <;> simp [Registers.zero, hr]

/-- A machine with a program that has just been loaded is where the reference interpreter starts. -/
theorem view_load {config : Config} {entropy : Random.Key} {m : Machine}
    (hnew : Machine.new config entropy = .ok m)
    {program : Array UInt8} (hfits : config.loadAddress.toNat + program.size ≤ config.memorySize)
    (keypad : Keypad) (random : Random) :
    ((m.load program).state.equipped keypad random).view =
      State.start config program keypad random := by
  obtain ⟨rfl, -, hscreen, hsound⟩ := fresh_of_new hnew
  have hsize := hsound.size_memory
  rw [← hsize] at hfits
  have hroom : m.hasRoomFor program.size m.config.loadAddress = true := by
    simpa [hasRoomFor] using hfits
  have hload : (m.load program).state =
      ({ m with program, origin := m.config.loadAddress } : Machine).reset := by
    rw [load, loadAt, if_pos hroom]
    rfl
  have hmemory := getD_image m.memory.size program m.config.loadAddress.toNat hfits
    (Nat.le_of_lt hsound.font_lt_size_memory)
  rw [hsize] at hmemory
  rw [hload]
  simp only [view, State.start, Machine.equipped, Machine.reset, hscreen, size_image, hsize,
    hmemory, zero_registers, grid_clear, apply_ite UInt8.toNat]
  rfl

/-- Steps of a machine are steps of the reference interpreter, from every state that a host can reach
and in particular from the start of a program, whatever keys are down and wherever the source of
random bytes stands. -/
theorem agrees_with_reference (n : Nat) :
    (∀ m : Machine, m.Reachable →
      (Operation.run (List.replicate n .step) m).view = Reference.after n m.view ∧
        Operation.answers (List.replicate n .step) m =
          (Reference.answers n m.view).map stepAnswer) ∧
    ∀ (config : Config) (entropy : Random.Key) (m : Machine) (program : Array UInt8)
      (keypad : Keypad) (random : Random),
      Machine.new config entropy = .ok m →
      config.loadAddress.toNat + program.size ≤ config.memorySize →
      (Operation.run (List.replicate n .step)
          ((m.load program).state.equipped keypad random)).view =
          Reference.after n (State.start config program keypad random) ∧
        Operation.answers (List.replicate n .step) ((m.load program).state.equipped keypad random) =
          (Reference.answers n (State.start config program keypad random)).map stepAnswer := by
  constructor
  · intro m h
    exact view_run_steps h.sound n
  · intro config entropy m program keypad random hnew hfits
    have hsound := (fresh_of_new hnew).sound.loadAt program m.config.loadAddress
    rw [← view_load hnew hfits keypad random]
    exact view_run_steps (hsound.equipped keypad random) n

/-- Two steps of a program that sets a register to 255 and adds 2 to it. -/
theorem agrees_with_reference_add :
    ∃ m, Machine.new { memorySize := 96, loadAddress := 80 } (.replicate 8 0) = .ok m ∧
      let started := State.start { memorySize := 96, loadAddress := 80 }
        #[0x60, 0xFF, 0x70, 0x02] {} { key := .ofSeed 7 }
      (Operation.run (List.replicate 2 .step) m).view = Reference.after 2 m.view ∧
        (Operation.run (List.replicate 2 .step)
          ((m.load #[0x60, 0xFF, 0x70, 0x02]).state.equipped {} { key := .ofSeed 7 })).view =
          Reference.after 2 started ∧
        (Reference.after 2 started).v 0 = 1 := by
  refine ⟨_, rfl, ?_⟩
  have hnew := @Reachable.new { memorySize := 96, loadAddress := 80 } (.replicate 8 0) _ rfl
  have hreached := (agrees_with_reference 2).1 _ hnew
  have hstarted := (agrees_with_reference 2).2 { memorySize := 96, loadAddress := 80 }
    (.replicate 8 0) _ #[0x60, 0xFF, 0x70, 0x02] {} { key := .ofSeed 7 } rfl (by decide)
  exact ⟨hreached.1, hstarted.1, by decide +kernel⟩

end Machine

end Chip8
