import Chip8.Proofs.Machine.Blocks
import Chip8.Proofs.Machine.Inspection
import Chip8.Proofs.Machine.Resetting

/-!
# Where memory is written

Only two instructions write to memory, and of the operations of a host only loads, resets and writes of
its own.  What lies elsewhere is kept.

* `Instruction.written`, `Machine.written` and `Operation.written`: the places that an instruction, the
  next step and an operation write to.  All others are kept (`Instruction.getElem?_execute`,
  `Machine.getElem?_step`, `Operation.getElem?_apply`).
* `Operation.SparesBelow` and `Operation.getElem?_run`: operations that write to no place below a limit.
* `Machine.HoldsFont` and `Machine.HoldsFont.getElem?_memory`: a machine whose font has not been written
  over.
-/

namespace Chip8

/-! ## Instructions -/

namespace Instruction

open Machine

/-- The places in memory that the instruction writes to. -/
def written (m : Machine) : Instruction → List Nat
  | storeDecimal _ => (List.range 3).map fun offset => (m.i.toNat + offset) % m.memory.size
  | storeRegs x => (List.range (x.toNat + 1)).map fun offset => (m.i.toNat + offset) % m.memory.size
  | _ => []

theorem getElem?_execute {i : Instruction} {m : Machine} {place : Nat} (h : place ∉ i.written m) :
    (i.execute m).state.memory[place]? = m.memory[place]? := by
  cases i with
  | ret =>
    simp only [execute]
    split <;> rfl
  | draw x y n =>
    simp only [execute, Machine.draw]
    split <;> rfl
  | waitKey x =>
    simp only [execute, awaitKey]
    split <;> rfl
  | storeDecimal x =>
    simp only [execute, writeBytes_eq]
    refine getElem?_overwritten_of_ne fun offset hoffset heq => h ?_
    exact List.mem_map.mpr ⟨offset, List.mem_range.mpr hoffset, heq⟩
  | storeRegs x =>
    rw [execute_storeRegs]
    refine getElem?_overwritten_of_ne fun offset hoffset heq => h ?_
    rw [m.v.length_block x] at hoffset
    exact List.mem_map.mpr ⟨offset, List.mem_range.mpr hoffset, heq⟩
  | loadRegs x =>
    rw [execute_loadRegs]
    rfl
  | _ => rfl

end Instruction

/-! ## Steps -/

namespace Machine

/-- The places in memory that the next step writes to. -/
def written (m : Machine) : List Nat :=
  if m.hasHalted || m.executing then []
  else
    match m.nextOpcode with
    | none => []
    | some w =>
      match (m.decode w).result with
      | .error _ => []
      | .ok i => i.written m

theorem memory_moveOn (m : Machine) (i : Instruction) : (m.moveOn i).memory = m.memory := by
  unfold moveOn
  split <;> rfl

theorem getElem?_perform {i : Instruction} {m : Machine} {place : Nat} (h : place ∉ i.written m) :
    (m.perform i).state.memory[place]? = m.memory[place]? := by
  have hplace : place ∉ i.written { m with executing := true } := h
  have hexecute := i.getElem?_execute hplace
  unfold perform
  generalize i.execute { m with executing := true } = outcome at hexecute ⊢
  obtain ⟨m', (fault | _) | _⟩ := outcome
  · exact hexecute
  · exact hexecute
  · simp only [Outcome.done, memory_moveOn]
    exact hexecute

theorem getElem?_step {m : Machine} {place : Nat} (h : place ∉ m.written) :
    m.step.state.memory[place]? = m.memory[place]? := by
  unfold step
  split
  · rfl
  split
  · rfl
  rename_i hrunning hidle
  cases hnext : m.nextOpcode with
  | none => rfl
  | some w =>
    have hdecode : m.decode w = ⟨m.seeing w, (m.decode w).result⟩ := rfl
    simp only [written, hrunning, hidle, hnext] at h
    dsimp only
    rw [hdecode]
    cases hresult : (m.decode w).result with
    | error failure => rfl
    | ok i =>
      rw [hresult] at h
      have hplace : place ∉ i.written m := by simpa using h
      exact getElem?_perform (m := m.seeing w) hplace

end Machine

/-! ## Operations -/

namespace Operation

open Machine

/-- The places in memory that the operation writes to. -/
def written (m : Machine) (operation : Operation) : List Nat :=
  match operation with
  | load _ | loadAt _ _ => if (operation.loaded? m).isSome then List.range m.memory.size else []
  | reset => List.range m.memory.size
  | step => m.written
  | execute i => i.written m
  | poke address bytes =>
    if address + bytes.size ≤ m.memory.size then List.range' address bytes.size else []
  | _ => []

theorem getElem?_apply {operation : Operation} {m : Machine} {place : Nat}
    (h : place ∉ operation.written m) :
    (operation.apply m).state.memory[place]? = m.memory[place]? := by
  -- What lies behind the end of memory is no byte before and after.
  have hbehind {m' : Machine} (hsize : m'.memory.size = m.memory.size)
      (hplace : place ∉ List.range m.memory.size) : m'.memory[place]? = m.memory[place]? := by
    rw [List.mem_range, Nat.not_lt] at hplace
    rw [Array.getElem?_eq_none hplace, Array.getElem?_eq_none (hsize ▸ hplace)]
  have hloadAt {program : Array UInt8} {origin : UInt16}
      (h : place ∉ (loadAt program origin).written m) :
      ((loadAt program origin).apply m).state.memory[place]? = m.memory[place]? := by
    simp only [written, loaded?_loadAt] at h
    obtain ⟨hfits, hload⟩ | ⟨hlarge, hload⟩ := m.loadAt_cases program origin
    · rw [if_pos hfits] at h
      refine hbehind ?_ h
      simp only [apply, hload]
      exact size_image m.memory.size program origin.toNat
    · simp only [apply, hload]
      rfl
  cases operation with
  | load program => exact hloadAt h
  | loadAt program origin => exact hloadAt h
  | reset => exact hbehind m.kept_reset.size_memory h
  | step => exact Machine.getElem?_step h
  | peek =>
    simp only [apply, state_peek]
    split <;> rfl
  | execute i => exact i.getElem?_execute h
  | setDelay value =>
    simp only [apply, setTimer]
    cases Timer.set? value <;> rfl
  | setSound value =>
    simp only [apply, setTimer]
    cases Timer.set? value <;> rfl
  | poke address bytes =>
    simp only [written] at h
    simp only [apply, Machine.poke]
    split
    · rename_i hfits
      rw [if_pos hfits, List.mem_range'_1] at h
      simp only [writeBytes_eq]
      refine getElem?_overwritten_of_ne fun offset hoffset heq => h ?_
      rw [Array.length_toList] at hoffset
      rw [Nat.mod_eq_of_lt (by omega)] at heq
      omega
    · rfl
  | pop =>
    simp only [apply]
    split <;> rfl
  | top =>
    simp only [apply]
    split <;> rfl
  | keyDown key | keyUp key =>
    simp only [apply, setKey]
    split <;> rfl
  | _ => rfl

/-- None of the operations, carried out one after the other, writes to a place below the limit. -/
def SparesBelow (limit : Nat) : List Operation → Machine → Prop
  | [], _ => True
  | operation :: operations, m =>
    (∀ place ∈ operation.written m, limit ≤ place) ∧
      SparesBelow limit operations (operation.apply m).state

/-- Bytes that no operation writes to are kept. -/
theorem getElem?_run {limit place : Nat} (hplace : place < limit) {operations : List Operation}
    {m : Machine} (h : SparesBelow limit operations m) :
    (run operations m).memory[place]? = m.memory[place]? := by
  induction operations generalizing m with
  | nil => rfl
  | cons operation operations ih =>
    obtain ⟨hfirst, hrest⟩ := h
    have hkept : place ∉ operation.written m := fun hwritten =>
      Nat.not_le.mpr hplace (hfirst place hwritten)
    rw [run_cons, ih hrest, getElem?_apply hkept]

end Operation

/-! ## The font -/

namespace Machine

/-- The machine has been reset with its program behind the font, and nothing has been written to the
font since then. -/
def HoldsFont (m : Machine) : Prop :=
  ∃ (m₀ : Machine) (past : List Operation), Font.size ≤ m₀.origin.toNat ∧
    Operation.SparesBelow Font.size past m₀.reset ∧ m = Operation.run past m₀.reset

theorem HoldsFont.getElem?_memory {m : Machine} (h : m.HoldsFont) {place : Nat}
    (hplace : place < Font.size) (hsize : place < m.memory.size) :
    m.memory[place]? = Font.bytes[place]? := by
  obtain ⟨m₀, past, horigin, hspares, rfl⟩ := h
  have hkept := Operation.getElem?_run hplace hspares
  have hlt : place < m₀.memory.size := by
    rw [Array.getElem?_eq_getElem hsize, eq_comm, Array.getElem?_eq_some_iff] at hkept
    obtain ⟨hlt, -⟩ := hkept
    rwa [← size_image m₀.memory.size m₀.program m₀.origin.toNat]
  have hfont : place < Font.bytes.size := by
    have hbytes : Font.bytes.size = Font.size := by decide
    omega
  rw [hkept, reset, getElem?_image _ _ hlt, if_neg (by omega), Array.getElem?_eq_getElem hfont]
  simp [hfont]

end Machine

end Chip8
