import Chip8.Proofs.Decoding
import Chip8.Proofs.Reference

/-!
# Opcodes of the reference interpreter

The reference interpreter takes an opcode apart by arithmetic.  These lemmas meet it with the nibbles
of an instruction.

* `run_of_nibbles`, `run_of_byte` and `run_of_address`: an opcode with the nibbles of an instruction
  is dispatched with the fields of the instruction.
* `run_of_unspelled`: an opcode with the nibbles of no instruction is unknown.
-/

namespace Chip8

open Reference

/-- No instruction has the nibbles of the opcode. -/
def Opcode.Unspelled (w : Opcode) : Prop :=
  ∀ i : Instruction, i.nibbles ≠
    [w.toNat / 4096, w.toNat / 256 % 16, w.toNat / 16 % 16, w.toNat % 16]

namespace Opcode.Unspelled

variable {w : Opcode}

/-- A family of instructions on two registers, told apart by the last nibble. -/
theorem last_ne (h : w.Unspelled) (kind : UInt8 → UInt8 → Instruction) {op last : Nat}
    (hkind : ∀ x y, (kind x y).nibbles = [op, x.toNat, y.toNat, last])
    (hop : w.toNat / 4096 = op) : w.toNat % 16 ≠ last := by
  intro hlast
  refine h (kind (w.toNat / 256 % 16).toUInt8 (w.toNat / 16 % 16).toUInt8) ?_
  rw [hkind, hop, hlast]
  simp only [UInt8.toNat_ofNat', List.cons.injEq, and_true, true_and]
  omega

/-- A family of instructions on one register, told apart by the last byte. -/
theorem byte_ne (h : w.Unspelled) (kind : UInt8 → Instruction) {op high low : Nat}
    (hkind : ∀ x, (kind x).nibbles = [op, x.toNat, high, low]) (hop : w.toNat / 4096 = op)
    (hlow : low < 16) : w.toNat % 256 ≠ 16 * high + low := by
  intro hbyte
  refine h (kind (w.toNat / 256 % 16).toUInt8) ?_
  rw [hkind, hop]
  simp only [UInt8.toNat_ofNat', List.cons.injEq, and_true, true_and]
  omega

/-- An instruction on a register and a byte has a first nibble of its own. -/
theorem op_ne_of_byte (h : w.Unspelled) (kind : UInt8 → UInt8 → Instruction) {op : Nat}
    (hkind : ∀ x byte, (kind x byte).nibbles = op :: x.toNat :: Slot.digits 2 byte.toNat) :
    w.toNat / 4096 ≠ op := by
  intro hop
  refine h (kind (w.toNat / 256 % 16).toUInt8 (w.toNat % 256).toUInt8) ?_
  rw [hkind, hop]
  simp only [Slot.digits, UInt8.toNat_ofNat', List.cons_append, List.nil_append, List.cons.injEq,
    and_true, true_and]
  omega

/-- An instruction on an address has a first nibble of its own. -/
theorem op_ne_of_address (h : w.Unspelled) (kind : UInt16 → Instruction) {op : Nat}
    (hkind : ∀ addr, (kind addr).nibbles = op :: Slot.digits 3 addr.toNat) :
    w.toNat / 4096 ≠ op := by
  intro hop
  refine h (kind (w.toNat % 4096).toUInt16) ?_
  rw [hkind, hop]
  simp only [Slot.digits, UInt16.toNat_ofNat', List.cons_append, List.nil_append, List.cons.injEq,
    and_true, true_and]
  omega

theorem op_ne_of_draw (h : w.Unspelled) : w.toNat / 4096 ≠ 0xD := by
  intro hop
  refine h (.draw (w.toNat / 256 % 16).toUInt8 (w.toNat / 16 % 16).toUInt8
    (w.toNat % 16).toUInt8) ?_
  simp only [Instruction.nibbles, hop, UInt8.toNat_ofNat', List.cons.injEq, and_true, true_and]
  omega

end Opcode.Unspelled

namespace Reference.State

/-! ## Taking an opcode apart -/

variable {w op x y n byte addr : Nat}

/-- An opcode by its four nibbles. -/
theorem run_of_nibbles (s : State)
    (h : [op, x, y, n] = [w / 4096, w / 256 % 16, w / 16 % 16, w % 16]) :
    x < 16 ∧ y < 16 ∧ n < 16 ∧
      s.run w = s.dispatch w op x y n (16 * y + n) (256 * x + 16 * y + n) := by
  simp only [List.cons.injEq, and_true] at h
  obtain ⟨rfl, rfl, rfl, rfl⟩ := h
  have hkk : w % 256 = 16 * (w / 16 % 16) + w % 16 := by omega
  have hnnn : w % 4096 = 256 * (w / 256 % 16) + 16 * (w / 16 % 16) + w % 16 := by omega
  refine ⟨by omega, by omega, by omega, ?_⟩
  rw [run, hkk, hnnn]

/-- An opcode by a register and a byte. -/
theorem run_of_byte (s : State)
    (h : op :: x :: Slot.digits 2 byte = [w / 4096, w / 256 % 16, w / 16 % 16, w % 16]) :
    x < 16 ∧ ∃ y n nnn, s.run w = s.dispatch w op x y n byte nnn := by
  obtain ⟨hx, -, -, hrun⟩ := run_of_nibbles s h
  rw [Nat.div_add_mod] at hrun
  exact ⟨hx, _, _, _, hrun⟩

/-- An opcode by an address. -/
theorem run_of_address (s : State)
    (h : op :: Slot.digits 3 addr = [w / 4096, w / 256 % 16, w / 16 % 16, w % 16]) :
    ∃ x y n kk, s.run w = s.dispatch w op x y n kk addr := by
  obtain ⟨-, -, -, hrun⟩ := run_of_nibbles s h
  have haddr : 256 * (addr / 16 / 16) + 16 * (addr / 16 % 16) + addr % 16 = addr := by omega
  rw [haddr] at hrun
  exact ⟨_, _, _, _, hrun⟩

/-! ## Returning from a call -/

theorem run_ret_of_nil {s : State} (hstack : s.stack = []) :
    s.run 0x00EE = .error (.stackUnderflow "pop") := by
  have hrun : s.run 0x00EE = s.runSystem 0x00EE := rfl
  rw [hrun, runSystem, if_neg (by decide), if_pos rfl, hstack]

theorem run_ret_of_cons {s : State} {address : Nat} {rest : List Nat}
    (hstack : s.stack = address :: rest) :
    s.run 0x00EE = .ok { s with pc := address, stack := rest } := by
  have hrun : s.run 0x00EE = s.runSystem 0x00EE := rfl
  rw [hrun, runSystem, if_neg (by decide), if_pos rfl, hstack]

/-! ## Opcodes of no instruction -/

section Unspelled

variable (s : State) {w : Opcode}

/-- The opcode's own word in the fault. -/
theorem unknown_toNat (w : Opcode) :
    (.error (.unknownOpcode w.toNat.toUInt16) : Except Fault State) =
      .error (.unknownOpcode w) := by
  rw [show w.toNat.toUInt16 = w from UInt16.ofNat_toNat]

theorem runSystem_of_unspelled (h : w.Unspelled) :
    s.runSystem w.toNat = .error (.unknownOpcode w) := by
  have hnibble : (w.toNat % 16).toUInt8.toNat = w.toNat % 16 := by
    simp only [UInt8.toNat_ofNat']
    omega
  have hclear : w.toNat ≠ 0x00E0 := fun hw => h .clearScreen (by rw [hw]; rfl)
  have hret : w.toNat ≠ 0x00EE := fun hw => h .ret (by rw [hw]; rfl)
  have hdown : w.toNat / 16 ≠ 0x00C := fun hw => h (.scrollDown (w.toNat % 16).toUInt8) (by
    simp only [Instruction.nibbles, hnibble, List.cons.injEq, and_true]
    omega)
  have hright : w.toNat ≠ 0x00FB := fun hw => h .scrollRight (by rw [hw]; rfl)
  have hleft : w.toNat ≠ 0x00FC := fun hw => h .scrollLeft (by rw [hw]; rfl)
  have hlow : w.toNat ≠ 0x00FE := fun hw => h .lowRes (by rw [hw]; rfl)
  have hhigh : w.toNat ≠ 0x00FF := fun hw => h .highRes (by rw [hw]; rfl)
  rw [runSystem, if_neg hclear, if_neg hret, if_neg hdown, if_neg hright, if_neg hleft,
    if_neg hlow, if_neg hhigh, unknown_toNat]

theorem runArithmetic_of_unspelled (h : w.Unspelled) (hop : w.toNat / 4096 = 0x8) (x y : Nat) :
    s.runArithmetic w.toNat x y (w.toNat % 16) = .error (.unknownOpcode w) := by
  have hcopy := h.last_ne .copy (fun _ _ => rfl) hop
  have hor := h.last_ne .or (fun _ _ => rfl) hop
  have hand := h.last_ne .and (fun _ _ => rfl) hop
  have hxor := h.last_ne .xor (fun _ _ => rfl) hop
  have hadd := h.last_ne .addReg (fun _ _ => rfl) hop
  have hsub := h.last_ne .subReg (fun _ _ => rfl) hop
  have hright := h.last_ne .shiftRight (fun _ _ => rfl) hop
  have hfrom := h.last_ne .subFrom (fun _ _ => rfl) hop
  have hleft := h.last_ne .shiftLeft (fun _ _ => rfl) hop
  unfold runArithmetic
  generalize (if s.shiftsVy then s.v y else s.v x) = shifted
  dsimp only
  split <;> first | contradiction | exact unknown_toNat w

theorem runKeys_of_unspelled (h : w.Unspelled) (hop : w.toNat / 4096 = 0xE) (x : Nat) :
    s.runKeys w.toNat x (w.toNat % 256) = .error (.unknownOpcode w) := by
  have hdown := h.byte_ne .skipKeyDown (fun _ => rfl) hop (by decide)
  have hup := h.byte_ne .skipKeyUp (fun _ => rfl) hop (by decide)
  unfold runKeys
  split <;> first | contradiction | exact unknown_toNat w

theorem runTransfer_of_unspelled (h : w.Unspelled) (hop : w.toNat / 4096 = 0xF) (x : Nat) :
    s.runTransfer w.toNat x (w.toNat % 256) = .error (.unknownOpcode w) := by
  have hdelay := h.byte_ne .readDelay (fun _ => rfl) hop (by decide)
  have hwait := h.byte_ne .waitKey (fun _ => rfl) hop (by decide)
  have hsetDelay := h.byte_ne .setDelay (fun _ => rfl) hop (by decide)
  have hsetSound := h.byte_ne .setSound (fun _ => rfl) hop (by decide)
  have hindex := h.byte_ne .addIndex (fun _ => rfl) hop (by decide)
  have hglyph := h.byte_ne .loadGlyph (fun _ => rfl) hop (by decide)
  have hdecimal := h.byte_ne .storeDecimal (fun _ => rfl) hop (by decide)
  have hstore := h.byte_ne .storeRegs (fun _ => rfl) hop (by decide)
  have hload := h.byte_ne .loadRegs (fun _ => rfl) hop (by decide)
  unfold runTransfer
  split <;> first | contradiction | exact unknown_toNat w

/-- The first nibbles that several instructions share. -/
theorem shared_op {op : Nat} (h : op < 16) (h1 : op ≠ 0x1) (h2 : op ≠ 0x2) (h3 : op ≠ 0x3)
    (h4 : op ≠ 0x4) (h6 : op ≠ 0x6) (h7 : op ≠ 0x7) (hA : op ≠ 0xA) (hB : op ≠ 0xB)
    (hC : op ≠ 0xC) (hD : op ≠ 0xD) :
    op = 0x0 ∨ op = 0x5 ∨ op = 0x8 ∨ op = 0x9 ∨ op = 0xE ∨ op = 0xF := by
  omega

/-- An opcode that spells no instruction is unknown to the reference interpreter. -/
theorem run_of_unspelled (h : w.Unspelled) : s.run w.toNat = .error (.unknownOpcode w) := by
  have hlt := w.toNat_lt
  have hjump := h.op_ne_of_address .jump fun _ => rfl
  have hcall := h.op_ne_of_address .call fun _ => rfl
  have hskipEq := h.op_ne_of_byte .skipEqByte fun _ _ => rfl
  have hskipNe := h.op_ne_of_byte .skipNeByte fun _ _ => rfl
  have hload := h.op_ne_of_byte .loadByte fun _ _ => rfl
  have hadd := h.op_ne_of_byte .addByte fun _ _ => rfl
  have hindex := h.op_ne_of_address .loadIndex fun _ => rfl
  have hoffset := h.op_ne_of_address .jumpOffset fun _ => rfl
  have hrandom := h.op_ne_of_byte .random fun _ _ => rfl
  have hdraw := h.op_ne_of_draw
  have hop : w.toNat / 4096 < 16 := by omega
  obtain hop | hop | hop | hop | hop | hop := shared_op hop hjump hcall hskipEq hskipNe
    hload hadd hindex hoffset hrandom hdraw
  · rw [run, hop]
    exact runSystem_of_unspelled s h
  · rw [run, hop, dispatch,
      if_neg (h.last_ne .skipEqReg (fun _ _ => rfl) hop), unknown_toNat]
  · rw [run, hop]
    exact runArithmetic_of_unspelled s h hop _ _
  · rw [run, hop, dispatch,
      if_neg (h.last_ne .skipNeReg (fun _ _ => rfl) hop), unknown_toNat]
  · rw [run, hop]
    exact runKeys_of_unspelled s h hop _
  · rw [run, hop]
    exact runTransfer_of_unspelled s h hop _

end Unspelled

end Reference.State

end Chip8
