import Chip8.Proofs.Emulator.Rendering
import Chip8.Proofs.Machine.Inspection
import Chip8.Proofs.Random.Transparency

/-!
# Counting random draws

The random bytes of a machine are a stream, and the instruction that draws a byte takes them off it one
after the other.  Nothing else does, and nothing winds the stream back: not a load, not a reset, and no
operation that fails.

* `Opcode.randomOperands?`: the opcodes that draw, by their nibbles (`Opcode.decode_eq_random_iff`).
* `Random.Draw`: a draw as the host can observe it.  `Machine.randomDraw?`, `Operation.randomDraws` and
  `Emulator.Action.randomDraws` are the draws of a cycle, of an operation and of what else a host does.
* `Random.Follows`: the draws between two generators follow the stream.  A cycle keeps this
  (`Machine.follows_cycle`), an operation (`Operation.follows_apply`), a frame (`Machine.follows_cycles`)
  and a list of actions (`Emulator.Action.follows_run`).
-/

namespace Chip8

/-! ## Draws -/

namespace Opcode

/-- The register and the mask of an opcode that draws a random byte. -/
def randomOperands? (w : Opcode) : Option (UInt8 × UInt8) :=
  if w.toNat / 4096 = 0xC then some ((w.toNat / 256 % 16).toUInt8, (w.toNat % 256).toUInt8)
  else none

theorem decode_eq_random_iff {w : Opcode} {x mask : UInt8} :
    w.decode = .ok (.random x mask) ↔ w.randomOperands? = some (x, mask) := by
  have hmask := mask.toNat_lt
  rw [randomOperands?]
  constructor
  · intro h
    have hnibbles := nibbles_of_decode_eq h
    simp only [Instruction.nibbles, Slot.digits, List.nil_append, List.cons_append, List.cons.injEq,
      and_true] at hnibbles
    have hx : w.toNat / 256 % 16 = x.toNat := by omega
    have hbyte : w.toNat % 256 = mask.toNat := by omega
    rw [if_pos (by omega), hx, hbyte]
    simp [Nat.toUInt8]
  · intro h
    split at h
    · rename_i hfirst
      cases h
      refine decode_of_nibbles_eq ?_
      simp only [Instruction.nibbles, Slot.digits, List.nil_append, List.cons_append, List.cons.injEq,
        and_true, Nat.toUInt8, UInt8.toNat_ofNat']
      omega
    · cases h

end Opcode

namespace Random

/-- A random byte that was drawn: the register that it was drawn for, the mask, and what the register
held afterwards. -/
structure Draw where
  /-- The number of the register. -/
  register : UInt8
  /-- The mask. -/
  mask : UInt8
  /-- The value of the register after the draw. -/
  written : UInt8
deriving DecidableEq

/-- The draws between two generators take the bytes of the stream one after the other, and no byte is
taken by anything else. -/
structure Follows (r : Random) (draws : List Draw) (r' : Random) : Prop where
  key : r'.key = r.key
  drawn : r'.drawn = r.drawn + draws.length
  written {j : Nat} {d : Draw} (h : draws[j]? = some d) :
    d.written = byteAt r.key (r.drawn + j) &&& d.mask

namespace Follows

variable {r r' r'' : Random} {draws draws' : List Draw}

theorem refl (r : Random) : r.Follows [] r := ⟨rfl, rfl, fun h => by simp at h⟩

theorem of_eq (h : r' = r) : r.Follows [] r' := h ▸ refl r

/-- A draw of the next byte. -/
theorem next (r : Random) (x mask : UInt8) :
    r.Follows [⟨x, mask, r.next.1 &&& mask⟩] r.next.2 := by
  refine ⟨rfl, rfl, fun {j d} h => ?_⟩
  obtain ⟨rfl, rfl⟩ : j = 0 ∧ d = ⟨x, mask, r.next.1 &&& mask⟩ := by
    cases j with
    | zero => exact ⟨rfl, (Option.some.inj h).symm⟩
    | succ j => simp at h
  rfl

theorem append (h : r.Follows draws r') (h' : r'.Follows draws' r'') :
    r.Follows (draws ++ draws') r'' := by
  refine ⟨h'.key.trans h.key, ?_, fun {j d} hj => ?_⟩
  · rw [h'.drawn, h.drawn, List.length_append, Nat.add_assoc]
  · rcases Nat.lt_or_ge j draws.length with hlt | hge
    · rw [List.getElem?_append_left hlt] at hj
      exact h.written hj
    · rw [List.getElem?_append_right hge] at hj
      have hwritten := h'.written hj
      rwa [h.key, h.drawn, Nat.add_assoc, Nat.add_sub_cancel' hge] at hwritten

/-- The generator afterwards is determined by the number of draws. -/
theorem eq (h : r.Follows draws r') : r' = { key := r.key, drawn := r.drawn + draws.length } := by
  rw [← h.key, ← h.drawn]

end Follows

end Random

namespace Machine

/-! ## Draws of a machine -/

/-- The register and the mask of the next step, if it draws a random byte. -/
def randomOperands? (m : Machine) : Option (UInt8 × UInt8) :=
  if m.hasHalted || m.executing then none else m.nextOpcode.bind Opcode.randomOperands?

/-- The draw of the next step, which leaves the machine `after`. -/
def randomDraw? (m after : Machine) : Option Random.Draw :=
  m.randomOperands?.map fun (x, mask) => ⟨x, mask, after.reg x⟩

theorem randomOperands?_eq_some_iff {m : Machine} {x mask : UInt8} :
    m.randomOperands? = some (x, mask) ↔
      m.exitCode = none ∧ m.executing = false ∧
        ∃ w, m.nextOpcode = some w ∧ w.decode = .ok (.random x mask) := by
  simp only [randomOperands?, Opcode.decode_eq_random_iff, ← hasHalted_eq_false_iff]
  cases m.hasHalted <;> cases m.executing <;> simp [Option.bind_eq_some_iff]

theorem draws_iff_randomOperands? {m : Machine} (h : m.decoder.Coherent) :
    m.Draws ↔ ∃ x mask, m.randomOperands? = some (x, mask) := by
  simp only [draws_iff h, randomOperands?_eq_some_iff, hasHalted_eq_false_iff]
  constructor
  · rintro ⟨hrunning, hidle, w, x, mask, hopcode, hdecode⟩
    exact ⟨x, mask, hrunning, hidle, w, hopcode, hdecode⟩
  · rintro ⟨x, mask, hrunning, hidle, w, hopcode, hdecode⟩
    exact ⟨hrunning, hidle, w, x, mask, hopcode, hdecode⟩

theorem random_of_new {config : Config} {entropy : Random.Key} {m : Machine}
    (h : Machine.new config entropy = .ok m) : m.random = .start config.seed entropy := by
  unfold Machine.new Config.validate at h
  cases hflaw : config.flaw? with
  | some flaw =>
    rw [hflaw] at h
    cases h
  | none =>
    rw [hflaw] at h
    cases h
    rfl

/-- Executing a draw writes the next byte under the mask and takes it off the stream. -/
theorem follows_execute (m : Machine) (x mask : UInt8) :
    m.random.Follows [⟨x, mask, ((Instruction.random x mask).execute m).state.reg x⟩]
      ((Instruction.random x mask).execute m).state.random := by
  have hwritten : ((Instruction.random x mask).execute m).state.reg x = m.random.next.1 &&& mask :=
    (m.v.read_write x (m.random.next.1 &&& mask) x).trans (if_pos rfl)
  rw [hwritten]
  exact .next m.random x mask

/-- The step that draws executes the draw and moves on behind it. -/
theorem step_of_randomOperands? {m : Machine} (h : m.decoder.Coherent) {x mask : UInt8}
    (hdraw : m.randomOperands? = some (x, mask)) :
    ∃ w, m.nextOpcode = some w ∧
      m.step = .done ((((Instruction.random x mask).execute (m.seeing w)).state).moveOn
        (.random x mask)) () := by
  obtain ⟨hrunning, hidle, w, hopcode, hdecode⟩ := randomOperands?_eq_some_iff.mp hdraw
  have hidle' : (m.seeing w).executing = false := hidle
  refine ⟨w, hopcode, ?_⟩
  rw [step_eq h, if_neg (by simp [hasHalted_eq_false_iff.mpr hrunning]), if_neg (by simp [hidle]),
    hopcode]
  simp only [hdecode]
  rw [perform_eq hidle']
  rfl

theorem random_step {m : Machine} (h : m.decoder.Coherent) (hnothing : m.randomOperands? = none) :
    m.step.state.random = m.random := by
  have hdraws : ¬ m.Draws := by
    rw [draws_iff_randomOperands? h, hnothing]
    simp
  exact congrArg (·.state.random) (step_withRandom hdraws m.random)

theorem follows_step {m : Machine} (h : m.decoder.Coherent) :
    m.random.Follows (m.randomDraw? m.step.state).toList m.step.state.random := by
  rw [randomDraw?]
  cases hdraw : m.randomOperands? with
  | none => exact .of_eq (random_step h hdraw)
  | some operands =>
    obtain ⟨x, mask⟩ := operands
    obtain ⟨w, -, hstep⟩ := step_of_randomOperands? h hdraw
    rw [hstep, moveOn_eq]
    exact (m.seeing w).follows_execute x mask

theorem random_peek (m : Machine) : m.peek.state.random = m.random :=
  congrArg (·.state.random) (m.peek_withRandom m.random)

theorem randomOperands?_peek (m : Machine) : m.peek.state.randomOperands? = m.randomOperands? := by
  rw [state_peek]
  cases m.nextOpcode <;> rfl

theorem coherent_cycle {m : Machine} (h : m.decoder.Coherent) (inspect : Bool) :
    (m.cycle inspect).state.decoder.Coherent := by
  have hstep {m : Machine} (h : m.decoder.Coherent) : m.step.state.decoder.Coherent :=
    Operation.coherent_apply .step h
  have hpeek : m.peek.state.decoder.Coherent := Operation.coherent_apply .peek h
  unfold cycle
  split
  · generalize m.peek = outcome at hpeek ⊢
    obtain ⟨m', _ | _⟩ := outcome
    · exact hpeek
    · exact hstep hpeek
  · exact hstep h

theorem follows_cycle {m : Machine} (h : m.decoder.Coherent) (inspect : Bool) :
    m.random.Follows (m.randomDraw? (m.cycle inspect).state).toList
      (m.cycle inspect).state.random := by
  by_cases hready : m.exitCode = none ∧ m.executing = false
  · rw [cycle_eq_step hready.1 hready.2]
    exact follows_step h
  · have hnothing : m.randomOperands? = none := by
      refine Option.eq_none_iff_forall_ne_some.mpr fun operands hdraw => hready ?_
      obtain ⟨hrunning, hidle, -⟩ := randomOperands?_eq_some_iff.mp hdraw
      exact ⟨hrunning, hidle⟩
    have hlooked := m.randomOperands?_peek.trans hnothing
    have hrandom := m.random_peek
    have hcoherent : m.peek.state.decoder.Coherent := Operation.coherent_apply .peek h
    rw [randomDraw?, hnothing]
    refine .of_eq ?_
    unfold cycle
    split
    · generalize m.peek = outcome at hlooked hrandom hcoherent ⊢
      obtain ⟨m', _ | _⟩ := outcome
      · exact hrandom
      · exact (random_step hcoherent hlooked).trans hrandom
    · exact random_step h hnothing

/-- The draws of the cycles of a frame. -/
def cyclesDraws (inspect : Bool) (n : Nat) (m : Machine) : List Random.Draw :=
  (Outcome.visited hasHalted (cycle inspect) n m).flatMap fun m =>
    (m.randomDraw? (m.cycle inspect).state).toList

theorem follows_cycles {m : Machine} (h : m.decoder.Coherent) (inspect : Bool) (n : Nat) :
    m.random.Follows (m.cyclesDraws inspect n) (m.cycles inspect n).state.random ∧
      (m.cycles inspect n).state.decoder.Coherent := by
  unfold cyclesDraws cycles
  induction n generalizing m with
  | zero => exact ⟨.refl m.random, h⟩
  | succ n ih =>
    cases hhalted : m.hasHalted with
    | true =>
      rw [Outcome.visited_of_stop (n + 1) hhalted, Outcome.repeatUntil_of_stop (n + 1) hhalted]
      exact ⟨.refl m.random, h⟩
    | false =>
      have hfirst := follows_cycle h inspect
      have hcoherent := coherent_cycle h inspect
      rw [Outcome.visited_succ hhalted, Outcome.repeatUntil_succ hhalted, List.flatMap_cons]
      cases (m.cycle inspect).result with
      | error failure => exact ⟨hfirst.append (.refl _), hcoherent⟩
      | ok answer =>
        obtain ⟨hrest, hcoherent'⟩ := ih hcoherent
        exact ⟨hfirst.append hrest, hcoherent'⟩

end Machine

namespace Operation

/-- The draws of an operation. -/
def randomDraws (m : Machine) : Operation → List Random.Draw
  | step => (m.randomDraw? m.step.state).toList
  | execute (.random x mask) =>
    [⟨x, mask, ((Instruction.random x mask).execute m).state.reg x⟩]
  | _ => []

theorem follows_apply (operation : Operation) {m : Machine} (h : m.decoder.Coherent) :
    m.random.Follows (operation.randomDraws m) (operation.apply m).state.random := by
  -- What does not draw leaves the generator alone.
  have hother {operation : Operation} (hdraws : ¬ operation.Draws m) :
      m.random.Follows [] (operation.apply m).state.random :=
    .of_eq (congrArg (·.state.random) (apply_withRandom hdraws m.random))
  cases operation with
  | step => exact Machine.follows_step h
  | execute i =>
    cases i with
    | random x mask => exact m.follows_execute x mask
    | _ => exact hother id
  | _ => exact hother id

end Operation

namespace Emulator

/-! ## Draws of an emulator -/

/-- The draws of a frame. -/
def frameDraws (e : Emulator) : List Random.Draw :=
  e.machine.cyclesDraws e.settings.debug e.cyclesPerFrame

theorem follows_runFrame {e : Emulator} (h : e.machine.decoder.Coherent) :
    e.machine.random.Follows e.frameDraws e.runFrame.state.machine.random ∧
      e.runFrame.state.machine.decoder.Coherent := by
  have hcycles := Machine.follows_cycles h e.settings.debug e.cyclesPerFrame
  rw [machine_runFrame]
  split <;> exact hcycles

theorem follows_advance {e : Emulator} (h : e.machine.decoder.Coherent) (hover : e.isOver = false) :
    e.machine.random.Follows e.frameDraws e.advance.state.machine.random ∧
      e.advance.state.machine.decoder.Coherent := by
  have hframe := follows_runFrame h
  rw [advance, if_neg (by simp [hover])]
  generalize e.runFrame = outcome at hframe ⊢
  obtain ⟨e', (_ | _) | _⟩ := outcome <;> exact hframe

namespace Action

/-- The draws of an action. -/
def randomDraws (e : Emulator) : Action → List Random.Draw
  | update => if e.isOver then [] else e.frameDraws
  | frame => e.frameDraws
  | move .. => []
  | operate operation => operation.randomDraws e.machine

/-- The draws of a list of actions. -/
def allRandomDraws : List Action → Emulator × FrameBuffer → List Random.Draw
  | [], _ => []
  | action :: actions, state =>
    action.randomDraws state.1 ++ allRandomDraws actions (action.apply state)

theorem follows_apply (action : Action) {e : Emulator} (h : e.machine.decoder.Coherent)
    (buffer : FrameBuffer) :
    e.machine.random.Follows (action.randomDraws e)
        (action.apply (e, buffer)).1.machine.random ∧
      (action.apply (e, buffer)).1.machine.decoder.Coherent := by
  cases action with
  | update =>
    have hstate : (Action.update.apply (e, buffer)).1 = e.advance.state := fst_update (e, buffer)
    rw [hstate, randomDraws]
    cases hover : e.isOver with
    | true =>
      rw [if_pos rfl, advance, if_pos hover]
      exact ⟨.refl _, h⟩
    | false => exact follows_advance h hover
  | frame => exact follows_runFrame h
  | move key down =>
    rcases machine_handleKey e key down with hsame | ⟨slot, hset⟩
    · show _ ∧ (e.handleKey key down).machine.decoder.Coherent
      exact ⟨.of_eq (congrArg Machine.random hsame), hsame ▸ h⟩
    · have hkept : (e.handleKey key down).machine.random = e.machine.random ∧
          (e.handleKey key down).machine.decoder = e.machine.decoder := by
        rw [hset, Machine.setKey]
        split <;> exact ⟨rfl, rfl⟩
      show _ ∧ (e.handleKey key down).machine.decoder.Coherent
      exact ⟨.of_eq hkept.1, hkept.2 ▸ h⟩
  | operate operation => exact ⟨operation.follows_apply h, operation.coherent_apply h⟩

theorem follows_run (actions : List Action) {e : Emulator} (h : e.machine.decoder.Coherent)
    (buffer : FrameBuffer) :
    e.machine.random.Follows (allRandomDraws actions (e, buffer))
      (run actions (e, buffer)).1.machine.random := by
  induction actions generalizing e buffer with
  | nil => exact .refl _
  | cons action actions ih =>
    obtain ⟨hfirst, hcoherent⟩ := action.follows_apply h buffer
    exact hfirst.append (ih hcoherent (action.apply (e, buffer)).2)

end Action

/-! ## The result -/

/-- Whatever a host does with an emulator over a new machine, random bytes are drawn off the stream of
its seed in order.  The draw with number `j`, counted from the making of the machine on, leaves byte `j`
under its mask in its register.  The generator counts the draws and nothing else, so the generators of
two machines of one seed that have drawn equally often are the same, however else the machines and what
was done with them differ. -/
theorem random_bytes_are_counted {config : Config} {seed : UInt64} (hseed : config.seed = some seed)
    {entropy : Random.Key} {e : Emulator} (hnew : Machine.new config entropy = .ok e.machine)
    (actions : List Action) (buffer : FrameBuffer) :
    let draws := Action.allRandomDraws actions (e, buffer)
    let random := (Action.run actions (e, buffer)).1.machine.random
    (∀ j d, draws[j]? = some d → d.written = Random.byteAt (.ofSeed seed) j &&& d.mask) ∧
      random = { key := .ofSeed seed, drawn := draws.length } ∧
      ∀ {config' : Config} {entropy' : Random.Key} {e' : Emulator}, config'.seed = some seed →
        Machine.new config' entropy' = .ok e'.machine →
        ∀ (actions' : List Action) (buffer' : FrameBuffer),
          (Action.allRandomDraws actions' (e', buffer')).length = draws.length →
            (Action.run actions' (e', buffer')).1.machine.random = random := by
  intro draws random
  have hfollows {config : Config} {entropy : Random.Key} {e : Emulator}
      (hseed : config.seed = some seed) (hnew : Machine.new config entropy = .ok e.machine)
      (actions : List Action) (buffer : FrameBuffer) :
      Random.Follows { key := .ofSeed seed } (Action.allRandomDraws actions (e, buffer))
        (Action.run actions (e, buffer)).1.machine.random := by
    have hrun := Action.follows_run actions (Machine.fresh_of_new hnew).sound.decoder buffer
    rwa [Machine.random_of_new hnew, hseed] at hrun
  have h : Random.Follows { key := .ofSeed seed } draws random := hfollows hseed hnew actions buffer
  refine ⟨fun j d hj => ?_, ?_, fun hseed' hnew' actions' buffer' hlength => ?_⟩
  · have hwritten := h.written hj
    rwa [Nat.zero_add] at hwritten
  · rw [h.eq, Nat.zero_add]
  · rw [h.eq, (hfollows hseed' hnew' actions' buffer').eq, hlength]

/-- A draw under the mask zero takes its byte off the stream, and a reset does not wind it back. -/
theorem random_bytes_are_counted_across_reset :
    ∃ m, Machine.new { seed := some 0 } (.replicate 8 0) = .ok m ∧
      let e : Emulator := { machine := m, settings := {} }
      let actions : List Action :=
        [.operate (.execute (.random 3 0)), .operate .reset, .operate (.execute (.random 4 0xFF))]
      let m' := (Action.run actions (e, #[])).1.machine
      m'.random = { key := .ofSeed 0, drawn := 2 } ∧ m'.reg 4 = 178 := by
  obtain ⟨m, hnew⟩ : ∃ m, Machine.new { seed := some 0 } (.replicate 8 0) = .ok m := ⟨_, rfl⟩
  refine ⟨m, hnew, ?_⟩
  intro e actions m'
  obtain ⟨hwritten, hrandom, -⟩ := random_bytes_are_counted rfl hnew (e := e) actions #[]
  refine ⟨hrandom, ?_⟩
  have hlast : m'.reg 4 = Random.byteAt (.ofSeed 0) 1 &&& 0xFF := hwritten 1 ⟨4, 0xFF, m'.reg 4⟩ rfl
  rw [hlast]
  decide +kernel

end Emulator

end Chip8
