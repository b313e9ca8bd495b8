import Chip8.Proofs.CallStack.Nesting
import Chip8.Proofs.Machine.Effects
import Chip8.Proofs.Machine.Loading
import Chip8.Proofs.Machine.Refusals

/-!
# Calls and returns of a program

As long as the host leaves the call stack to the program, the stack holds the addresses behind the
calls that have not been returned from.  So a return goes on behind its call, however deep calls are
nested, and fails if every call has been returned from.

* `Machine.executed?` and `Operation.executed`: the instructions that steps execute.
* `Machine.Sound.called`: what a step does to the call stack, in four cases.
* `Machine.Calling`: what the instructions executed so far say about the call stack.  A step keeps it
  (`Calling.step`), and with the operations that leave calls alone a run does (`Calling.run`).
-/

namespace Chip8

namespace Opcode

theorem decode_eq_call_iff {w : Opcode} :
    (∃ addr, w.decode = .ok (.call addr)) ↔ w.toNat / 4096 = 2 := by
  constructor
  · rintro ⟨addr, h⟩
    have hnibbles := nibbles_of_decode_eq h
    exact (List.cons.inj hnibbles).1.symm
  · intro h
    refine ⟨(w.toNat % 4096).toUInt16, decode_of_nibbles_eq ?_⟩
    have haddr : (w.toNat % 4096).toUInt16.toNat = w.toNat % 4096 := by
      rw [Nat.toUInt16, UInt16.toNat_ofNat']
      omega
    simp only [Instruction.nibbles, Slot.digits, haddr, List.nil_append, List.cons_append,
      List.cons.injEq, and_true]
    omega

end Opcode

namespace Machine

/-! ## Executed instructions -/

/-- The instruction that a step of the machine executes, if it executes one. -/
def executed? (m : Machine) : Option Executed :=
  match m.exitCode, m.nextOpcode, m.step.result with
  | none, some opcode, .ok () => some { address := m.pc, opcode, next := m.step.state.pc }
  | _, _, _ => none

theorem executed?_eq_some_iff {m : Machine} {e : Executed} :
    m.executed? = some e ↔
      m.exitCode = none ∧ m.nextOpcode = some e.opcode ∧ m.step.result = .ok () ∧
        e.address = m.pc ∧ e.next = m.step.state.pc := by
  unfold executed?
  constructor
  · intro h
    split at h
    · rename_i w hrunning hopcode hresult
      cases h
      exact ⟨hrunning, hopcode, hresult, rfl, rfl⟩
    · cases h
  · rintro ⟨hrunning, hopcode, hresult, haddress, hnext⟩
    rw [hrunning, hopcode, hresult]
    simp [← haddress, ← hnext]

theorem executed?_of_nextOpcode_eq_none {m : Machine} (h : m.nextOpcode = none) :
    m.executed? = none := by
  refine Option.eq_none_iff_forall_ne_some.mpr fun e he => ?_
  obtain ⟨-, hopcode, -⟩ := executed?_eq_some_iff.mp he
  rw [h] at hopcode
  cases hopcode

theorem executed?_of_error {m : Machine} {failure : Failure} (h : m.step.result = .error failure) :
    m.executed? = none := by
  refine Option.eq_none_iff_forall_ne_some.mpr fun e he => ?_
  obtain ⟨-, -, hresult, -⟩ := executed?_eq_some_iff.mp he
  rw [h] at hresult
  cases hresult

theorem executed?_of_execute {m m' : Machine} (h : m.Sound) {w : Opcode} {i : Instruction}
    (hrunning : m.exitCode = none) (hopcode : m.nextOpcode = some w) (hdecode : w.decode = .ok i)
    (hexecute : i.execute m = .done m' ()) :
    m.executed? = some { address := m.pc, opcode := w, next := (m'.moveOn i).pc } := by
  rw [executed?, h.step_of_execute hrunning hopcode hdecode hexecute, hrunning, hopcode]
  rfl

/-- What a step does to the call stack. -/
inductive Called (m : Machine) : Prop
  /-- The step executes nothing. -/
  | nothing (hexecuted : m.executed? = none) (hstack : m.step.state.stack = m.stack)
  /-- The step executes an instruction that neither calls nor returns. -/
  | other {e : Executed} (hexecuted : m.executed? = some e) (hcall : e.isCall = false)
      (hreturn : e.isReturn = false) (hstack : m.step.state.stack = m.stack)
  /-- The step calls. -/
  | call {e : Executed} (hexecuted : m.executed? = some e) (hcall : e.isCall)
      (hstack : m.step.state.stack = m.stack.push e.behind)
  /-- The step returns. -/
  | ret {e : Executed} (hexecuted : m.executed? = some e) (hreturn : e.isReturn)
      (hstack : m.stack.pop = .ok (e.next, m.step.state.stack))

theorem Sound.called {m : Machine} (h : m.Sound) : m.Called := by
  cases h.stepped with
  | halted hhalted hstep =>
    obtain ⟨code, hcode⟩ := Option.isSome_iff_exists.mp hhalted
    exact .nothing (by rw [executed?, hcode]) (by rw [hstep]; rfl)
  | halts _ hopcode hstep =>
    exact .nothing (executed?_of_nextOpcode_eq_none hopcode) (by rw [hstep]; rfl)
  | unknown w _ _ _ hstep =>
    exact .nothing (executed?_of_error (by rw [hstep]; rfl)) (by rw [hstep]; rfl)
  | refused w i fault _ _ _ _ hstep =>
    exact .nothing (executed?_of_error (by rw [hstep]; rfl)) (by rw [hstep]; rfl)
  | performed w i m' hrunning hopcode hdecode hexecute hstep =>
    have hexecuted :=
      executed?_of_execute h (hasHalted_eq_false_iff.mp hrunning) hopcode hdecode hexecute
    have hstack : m.step.state.stack = m'.stack := by
      rw [hstep, moveOn_eq]
      rfl
    by_cases hcall : ∃ addr, i = .call addr
    · obtain ⟨addr, rfl⟩ := hcall
      cases hexecute
      exact .call hexecuted (decide_eq_true (Opcode.decode_eq_call_iff.mp ⟨addr, hdecode⟩)) hstack
    by_cases hret : i = .ret
    · subst hret
      have hreturn := decide_eq_true (Opcode.decode_eq_ret_iff.mp hdecode)
      rw [Instruction.execute] at hexecute
      cases hpop : m.stack.pop with
      | error fault =>
        rw [hpop] at hexecute
        cases hexecute
      | ok popped =>
        obtain ⟨address, stack⟩ := popped
        rw [hpop] at hexecute
        cases hexecute
        exact .ret hexecuted hreturn (by rw [hpop, hstack]; rfl)
    · have hsame := i.stack_execute (fun addr hi => hcall ⟨addr, hi⟩) hret m
      rw [hexecute] at hsame
      refine .other hexecuted (decide_eq_false fun hw => ?_) (decide_eq_false fun hw => ?_)
        (hstack.trans hsame)
      · obtain ⟨addr, hdecode'⟩ := Opcode.decode_eq_call_iff.mpr hw
        rw [hdecode', Except.ok.injEq] at hdecode
        exact hcall ⟨addr, hdecode.symm⟩
      · rw [Opcode.decode_eq_ret_iff.mpr hw, Except.ok.injEq] at hdecode
        exact hret hdecode.symm

/-- A machine whose call stack is empty refuses to return, and this is its only refusal of the kind. -/
theorem refuses_stackUnderflow_iff {m : Machine} {w : Opcode} :
    m.Refuses w (.fault (.stackUnderflow "pop")) ↔ w = 0x00EE ∧ m.stack.frames = [] := by
  simp [Refuses, ← UInt16.toNat_inj]

/-! ## The call stack and the trace -/

/-- What the instructions executed so far say about the call stack: it holds the addresses behind the
pending calls, and every return went on behind its call. -/
structure Calling (t : Trace) (m : Machine) : Prop where
  stack : ∃ places, t.Opened places ∧ m.stack.toList = t.addressesBehind places
  returns : t.ReturnsBehindCalls

namespace Calling

variable {t : Trace} {m : Machine}

theorem of_stack_eq (h : Calling t m) {m' : Machine} (hstack : m'.stack = m.stack) :
    Calling t m' :=
  ⟨hstack ▸ h.stack, h.returns⟩

/-- A step adds what it executes to the trace and keeps the call stack in line with it. -/
theorem step (h : Calling t m) (hm : m.Sound) :
    Calling (t ++ m.executed?.toList) m.step.state := by
  obtain ⟨places, hopened, haddresses⟩ := h.stack
  have hold (s : Trace) := t.addressesBehind_append (fun j hj => hopened.lt_length hj) s
  cases hm.called with
  | nothing hexecuted hstack =>
    rw [hexecuted, Option.toList_none, List.append_nil]
    exact h.of_stack_eq hstack
  | @other e hexecuted hcall hreturn hstack =>
    rw [hexecuted, Option.toList_some]
    refine ⟨⟨places, hopened.other hcall hreturn, ?_⟩, h.returns.concat fun hr => ?_⟩
    · rw [hstack, haddresses, hold]
    · rw [hreturn] at hr
      cases hr
  | @call e hexecuted hcall hstack =>
    rw [hexecuted, Option.toList_some]
    refine ⟨⟨_, hopened.call hcall, ?_⟩, h.returns.concat fun hr => ?_⟩
    · have hnew : (t ++ [e])[t.length]? = some e := by simp
      rw [hstack, CallStack.toList_push, haddresses, Trace.addressesBehind_concat hnew, hold]
    · rw [Executed.isCall_of_isReturn hr] at hcall
      cases hcall
  | @ret e hexecuted hreturn hstack =>
    rw [hexecuted, Option.toList_some]
    have htop := CallStack.toList_of_pop hstack
    obtain rfl | ⟨places', j, rfl⟩ := List.eq_nil_or_concat' places
    · rw [haddresses] at htop
      simp [Trace.addressesBehind] at htop
    · obtain ⟨hopened', hmatches⟩ := hopened.ret hreturn
      obtain ⟨c, hc⟩ : ∃ c, t[j]? = some c :=
        ⟨_, List.getElem?_eq_getElem (hopened.lt_length (by simp))⟩
      rw [haddresses, Trace.addressesBehind_concat hc] at htop
      obtain ⟨hbelow, hbehind⟩ := List.append_inj' htop rfl
      refine ⟨⟨places', hopened', ?_⟩, h.returns.concat fun _ => ⟨j, c, hmatches, hc, ?_⟩⟩
      · rw [← hbelow, t.addressesBehind_append fun k hk => hopened.lt_length (by simp [hk])]
      · simpa using hbehind.symm

end Calling

end Machine

/-! ## Runs -/

namespace Operation

/-- The instructions that the steps among the operations execute, one after the other. -/
def executed : List Operation → Machine → Trace
  | [], _ => []
  | operation :: operations, m =>
    (if operation = .step then m.executed?.toList else []) ++
      executed operations (operation.apply m).state

/-- Whether the operation leaves calls and returns to the program: it has no access to the call stack
and does not start the program anew. -/
def LeavesCalls : Operation → Prop
  | load _ | loadAt .. | reset | push _ | pop => False
  | execute i => (∀ addr, i ≠ .call addr) ∧ i ≠ .ret
  | _ => True

/-- An operation other than a step that leaves calls to the program does not change the call stack. -/
theorem stack_apply {operation : Operation} (h : operation.LeavesCalls) (hstep : operation ≠ .step)
    (m : Machine) : (operation.apply m).state.stack = m.stack := by
  cases operation with
  | load | loadAt | reset | push | pop => exact h.elim
  | step => exact absurd rfl hstep
  | execute i => exact i.stack_execute h.1 h.2 m
  | peek =>
    simp only [apply, Machine.peek]
    cases m.nextOpcode with
    | none => rfl
    | some w =>
      simp only [Machine.decode]
      obtain ⟨d, _ | i⟩ := m.decoder.decode w <;> rfl
  | setDelay value =>
    simp only [apply, Machine.setTimer]
    split <;> rfl
  | setSound value =>
    simp only [apply, Machine.setTimer]
    split <;> rfl
  | poke address bytes =>
    simp only [apply, Machine.poke, Machine.writeBytes_eq]
    split <;> rfl
  | top =>
    simp only [apply]
    split <;> rfl
  | keyDown key =>
    simp only [apply, Machine.setKey]
    split <;> rfl
  | keyUp key =>
    simp only [apply, Machine.setKey]
    split <;> rfl
  | _ => rfl

end Operation

namespace Machine

/-- A run adds what it executes to the trace and keeps the call stack in line with it. -/
theorem Calling.run {t : Trace} {m : Machine} (h : Calling t m) (hm : m.Sound)
    {operations : List Operation}
    (hlegal : ∀ operation ∈ operations, operation.Legal m.memory.size)
    (hleaves : ∀ operation ∈ operations, operation.LeavesCalls) :
    Calling (t ++ Operation.executed operations m) (Operation.run operations m) := by
  induction operations generalizing t m with
  | nil =>
    rw [Operation.executed, List.append_nil]
    exact h
  | cons operation operations ih =>
    obtain ⟨hfirst, hrest⟩ := Operation.legal_of_cons hm hlegal
    obtain ⟨hleave, hleaves⟩ := List.forall_mem_cons.mp hleaves
    have hsound := Operation.sound_apply hm hfirst
    rw [Operation.run_cons, Operation.executed, ← List.append_assoc]
    refine ih ?_ hsound hrest hleaves
    by_cases hstep : operation = .step
    · subst hstep
      rw [if_pos rfl]
      exact h.step hm
    · rw [if_neg hstep, List.append_nil]
      exact h.of_stack_eq (Operation.stack_apply hleave hstep m)

/-- A program that has been loaded has called nothing yet. -/
theorem calling_of_loadAt {m m₀ : Machine} {program : Array UInt8} {origin : UInt16}
    (h : m.loadAt program origin = .done m₀ ()) : Calling [] m₀ := by
  have hstack : m₀.stack = {} := by rw [eq_reset_of_loadAt h]; rfl
  refine ⟨⟨[], .balanced .nil, by rw [hstack]; rfl⟩, fun k r hr => ?_⟩
  simp at hr

/-- Calls and returns of a program nest.  From its load on, for as long as the host leaves the call
stack alone, the stack holds the addresses behind the pending calls in the order in which they were
executed.  Every return went on behind the one call that it belongs to, and a return fails exactly if
no call is pending.  No other instruction changes the stack. -/
theorem calls_and_returns_nest {m m₀ : Machine} (hm : m.Reachable) {program : Array UInt8}
    {origin : UInt16} (hload : m.loadAt program origin = .done m₀ ()) {operations : List Operation}
    (hlegal : ∀ operation ∈ operations, operation.Legal m₀.memory.size)
    (hleaves : ∀ operation ∈ operations, operation.LeavesCalls) :
    let t := Operation.executed operations m₀
    let m' := Operation.run operations m₀
    (∃ places : List Nat, places.Pairwise (· < ·) ∧ (∀ j, j ∈ places ↔ t.Pending j) ∧
      m'.stack.toList = t.addressesBehind places) ∧
    (∀ k r, t[k]? = some r → r.isReturn →
      ∃ j c, t.Matches j k ∧ (∀ j', t.Matches j' k → j' = j) ∧ t[j]? = some c ∧
        r.next = c.behind) ∧
    (m'.step.result = .error (.fault (.stackUnderflow "pop")) ↔
      m'.exitCode = none ∧ m'.nextOpcode = some 0x00EE ∧ ∀ j, ¬ t.Pending j) ∧
    ((∀ e, m'.executed? = some e → e.isCall = false ∧ e.isReturn = false) →
      m'.step.state.stack = m'.stack) ∧
    ∀ i : Instruction, (∀ addr, i ≠ .call addr) → i ≠ .ret →
      ∀ m : Machine, (i.execute m).state.stack = m.stack := by
  intro t m'
  have hsound : m₀.Sound := hm.sound.of_loadAt hload
  have hsound' : m'.Sound := (Operation.sound_run hsound hlegal).1
  have hcalling : Calling t m' := (calling_of_loadAt hload).run hsound hlegal hleaves
  obtain ⟨places, hopened, haddresses⟩ := hcalling.stack
  refine ⟨⟨places, hopened.pairwise_lt, fun j => hopened.mem_iff, haddresses⟩, ?_, ?_, ?_,
    fun i hcall hret => i.stack_execute hcall hret⟩
  · intro k r hr hreturn
    obtain ⟨j, c, hmatches, hc, hnext⟩ := hcalling.returns k r hr hreturn
    exact ⟨j, c, hmatches, fun j' h => h.unique hmatches, hc, hnext⟩
  · have hframes : m'.stack.frames = [] ↔ ∀ j, ¬ t.Pending j := by
      have hnone := t.addressesBehind_eq_nil_iff fun j hj => hopened.lt_length hj
      rw [← haddresses, CallStack.toList, List.reverse_eq_nil_iff] at hnone
      simp only [hnone, List.eq_nil_iff_forall_not_mem, hopened.mem_iff]
    rw [step_eq_error_iff hsound', hasHalted_eq_false_iff]
    simp only [refuses_stackUnderflow_iff, hframes]
    refine and_congr_right fun _ => ⟨?_, fun h => ⟨_, h.1, rfl, h.2⟩⟩
    rintro ⟨w, hopcode, rfl, hnone⟩
    exact ⟨hopcode, hnone⟩
  · intro hneither
    cases hsound'.called with
    | nothing _ hstack => exact hstack
    | other _ _ _ hstack => exact hstack
    | call hexecuted hcall => rw [(hneither _ hexecuted).1] at hcall; cases hcall
    | ret hexecuted hreturn => rw [(hneither _ hexecuted).2] at hreturn; cases hreturn

/-- A program that calls and returns. -/
theorem calls_and_returns_nest_once :
    ∃ m m₀ : Machine, m.Reachable ∧
      m.loadAt #[0x20, 0x54, 0x00, 0x00, 0x00, 0xEE] 80 = .done m₀ () ∧
      Operation.executed [.step, .step] m₀ =
        [{ address := 80, opcode := 0x2054, next := 84 },
          { address := 84, opcode := 0x00EE, next := 82 }] ∧
      (Operation.executed [.step, .step] m₀).Matches 0 1 ∧
      (Operation.run [.step, .step] m₀).stack.toList = [] := by
  obtain ⟨m, hnew⟩ :
      ∃ m, Machine.new { memorySize := 96, loadAddress := 80 } (.replicate 8 0) = .ok m := ⟨_, rfl⟩
  have hfresh := fresh_of_new hnew
  have hsize : m.memory.size = 96 := hfresh.size_memory
  let program : Array UInt8 := #[0x20, 0x54, 0x00, 0x00, 0x00, 0xEE]
  have hroom : (80 : UInt16).toNat + program.size ≤ m.memory.size := by rw [hsize]; decide
  have hload : m.loadAt program 80 = _ := loadAt_of_le hroom
  let m₀ : Machine := ({ m with program, origin := 80 } : Machine).reset
  have hsound : m₀.Sound := hfresh.sound.of_loadAt hload
  have hbyte (place : Nat) (hplace : place < program.size) :
      m₀.memory[80 + place]? = program[place]? := getElem?_image_of_program hroom hplace
  -- The first step calls.
  have hopcode : m₀.nextOpcode = some (.ofBytes 0x20 0x54) :=
    nextOpcode_eq_some_iff.mpr
      ⟨0x20, 0x54, hbyte 0 (by decide), hbyte 1 (by decide), rfl, by decide⟩
  have hdecode : (Opcode.ofBytes 0x20 0x54).decode = .ok (.call 0x54) :=
    Opcode.decode_of_nibbles_eq rfl
  have hexecuted := executed?_of_execute hsound rfl hopcode hdecode rfl
  have hstep := hsound.step_of_execute rfl hopcode hdecode rfl
  -- The second step returns.
  let m₁ := m₀.step.state
  have hsound₁ : m₁.Sound := hsound.step
  have hm₁ : m₁ = _ := congrArg Outcome.state hstep
  have hopcode₁ : m₁.nextOpcode = some (.ofBytes 0x00 0xEE) := by
    rw [hm₁]
    exact nextOpcode_eq_some_iff.mpr
      ⟨0x00, 0xEE, hbyte 4 (by decide), hbyte 5 (by decide), rfl, by decide⟩
  have hdecode₁ : (Opcode.ofBytes 0x00 0xEE).decode = .ok .ret := Opcode.decode_of_nibbles_eq rfl
  have hexecute₁ : Instruction.ret.execute m₁ = .done { m₁ with pc := 82, stack := {} } () := by
    rw [hm₁]
    rfl
  have hexecuted₁ := executed?_of_execute hsound₁ (by rw [hm₁]; rfl) hopcode₁ hdecode₁ hexecute₁
  have htrace : Operation.executed [.step, .step] m₀ =
      [{ address := 80, opcode := 0x2054, next := 84 },
        { address := 84, opcode := 0x00EE, next := 82 }] := by
    show m₀.executed?.toList ++ (m₁.executed?.toList ++ []) = _
    rw [hexecuted, hexecuted₁, show m₁.pc = 84 by rw [hm₁]; rfl]
    rfl
  have hsteps : ∀ operation ∈ [Operation.step, .step], operation = .step := by decide
  have hlegal : ∀ operation ∈ [Operation.step, .step], operation.Legal m₀.memory.size :=
    fun _ hmem => hsteps _ hmem ▸ trivial
  have hleaves : ∀ operation ∈ [Operation.step, .step], operation.LeavesCalls :=
    fun _ hmem => hsteps _ hmem ▸ trivial
  obtain ⟨⟨places, -, hpending, haddresses⟩, hreturns, -⟩ :=
    calls_and_returns_nest (.new hnew) hload hlegal hleaves
  rw [htrace] at hpending haddresses hreturns
  obtain ⟨j, c, hmatches, -⟩ := hreturns 1 _ rfl rfl
  obtain rfl : j = 0 := Nat.lt_one_iff.mp hmatches.lt
  have hnone : places = [] := by
    refine List.eq_nil_iff_forall_not_mem.mpr fun j hj => ?_
    obtain ⟨⟨c, hc, hcall⟩, hunmatched⟩ := (hpending j).mp hj
    match j with
    | 0 => exact hunmatched 1 hmatches
    | 1 => cases hc; cases hcall
    | j + 2 => simp at hc
  refine ⟨m, m₀, .new hnew, hload, htrace, htrace ▸ hmatches, ?_⟩
  rw [haddresses, hnone]
  rfl

end Machine

end Chip8
