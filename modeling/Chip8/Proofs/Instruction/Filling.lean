import Chip8.Proofs.Decoding

/-!
# Instructions filled with operands

`Instruction.fill` takes the fields of an instruction from a list of operands.  This module says which
operands the fields come from, whatever else is in the list.

* `Instruction.registers`, `Instruction.constant?` and `Instruction.constantRange?`: the register fields,
  the constant field, and how many values the constant field can hold.  An instruction is filled with
  its own fields (`fill_self`), so they determine it (`eq_of_fields`).
* `Instruction.SuppliedBy` and `Instruction.FilledFrom`: the operands that are enough for an instruction,
  and the instruction that they give.  These are the two ways in which filling ends (`fill_cases`).
* `Instruction.fill_routes_operands`: the same for a list of operands in any order.
-/

namespace Chip8

/-- The register that the operand names, as it stands in the operand. -/
def Operand.number? : Operand → Option UInt8
  | register number => some number
  | constant _ => none

namespace Instruction

/-! ## Fields -/

/-- The register fields, in order. -/
def registers (i : Instruction) : List UInt8 := i.operands.filterMap Operand.number?

/-- The constant field, if there is one. -/
def constant? (i : Instruction) : Option UInt16 := (i.operands.filterMap Operand.constant?).getLast?

/-- The number of values that the constant field can hold: all words for an address, and all bytes for
a byte or a nibble. -/
def constantRange? : Instruction → Option Nat
  | jump _ | call _ | loadIndex _ | jumpOffset _ => some 65536
  | scrollDown _ | skipEqByte .. | skipNeByte .. | loadByte .. | addByte .. | random .. | draw .. =>
    some 256
  | _ => none

/-- An instruction is filled with its own fields, also where a register field names no register. -/
theorem fill_self (i : Instruction) (format : String) :
    i.fill { format, registers := i.registers, constant := i.constant? } = .ok i := by
  cases i <;>
    simp [fill, registers, constant?, operands, Operand.number?, Operand.constant?, Operands.x,
      Operands.y, Operands.byte, Operands.address, Operands.supply, bind, Except.bind, pure,
      Except.pure]

/-- An instruction is determined by its kind and its fields. -/
theorem eq_of_fields {i j : Instruction} (hfill : ∀ o, i.fill o = j.fill o)
    (hregisters : i.registers = j.registers) (hconstant : i.constant? = j.constant?) : i = j := by
  have hi := i.fill_self ""
  rw [hfill, hregisters, hconstant, j.fill_self] at hi
  exact (Except.ok.inj hi).symm

/-! ## Filling -/

/-- The operands have a register for each register field, and a constant for the constant field. -/
def SuppliedBy (i : Instruction) (o : Operands) : Prop :=
  i.registers.length ≤ o.registers.length ∧ (i.constant?.isSome = true → o.constant.isSome = true)

/-- The instruction is of the same kind as another and has the operands in its fields, the first
registers and as much of the constant as the field can hold. -/
structure FilledFrom (proto : Instruction) (o : Operands) (i : Instruction) : Prop where
  kind : i.ctorIdx = proto.ctorIdx
  registers : i.registers = o.registers.take proto.registers.length
  constant : i.constant?.map UInt16.toNat =
    proto.constantRange?.bind fun range => o.constant.map fun value => value.toNat % range

/-- The two ways in which filling ends. -/
inductive Filling (proto : Instruction) (o : Operands) : Prop
  | filled {i : Instruction} (hsupplied : proto.SuppliedBy o) (hfill : proto.fill o = .ok i)
      (h : proto.FilledFrom o i) : Filling proto o
  | missing (hsupplied : ¬ proto.SuppliedBy o)
      (hfill : proto.fill o = .error (.missingOperand o.format)) : Filling proto o

/-- A byte field keeps the low byte of a constant. -/
private theorem toNat_low (value : UInt16) : value.toUInt8.toUInt16.toNat = value.toNat % 256 := by
  simp

/-- Filling succeeds with the operands that an instruction is supplied by, and fails without them. -/
theorem fill_cases (proto : Instruction) (o : Operands) : proto.Filling o := by
  obtain ⟨format, registers, constant⟩ := o
  -- The kinds of instruction are grouped by their fields, and each group is split by how many of them
  -- the operands supply.
  cases proto with
  | clearScreen | ret | scrollRight | scrollLeft | lowRes | highRes =>
    exact .filled ⟨Nat.zero_le _, nofun⟩ rfl ⟨rfl, rfl, rfl⟩
  | scrollDown =>
    cases constant with
    | none => exact .missing (fun h => nomatch h.2 rfl) rfl
    | some value =>
      exact .filled ⟨Nat.zero_le _, fun _ => rfl⟩ rfl ⟨rfl, rfl, congrArg some (toNat_low value)⟩
  | jump | call | loadIndex | jumpOffset =>
    cases constant with
    | none => exact .missing (fun h => nomatch h.2 rfl) rfl
    | some value =>
      exact .filled ⟨Nat.zero_le _, fun _ => rfl⟩ rfl
        ⟨rfl, rfl, congrArg some (Nat.mod_eq_of_lt value.toNat_lt).symm⟩
  | skipEqByte | skipNeByte | loadByte | addByte | random =>
    match registers, constant with
    | [], _ => exact .missing (fun h => nomatch h.1) rfl
    | x :: rest, none => exact .missing (fun h => nomatch h.2 rfl) rfl
    | x :: rest, some value =>
      exact .filled ⟨Nat.le_add_left 1 _, fun _ => rfl⟩ rfl
        ⟨rfl, rfl, congrArg some (toNat_low value)⟩
  | skipEqReg | copy | or | and | xor | addReg | subReg | shiftRight | subFrom | shiftLeft
  | skipNeReg =>
    match registers with
    | [] => exact .missing (fun h => nomatch h.1) rfl
    | [x] => exact .missing (fun h => Nat.not_succ_le_self 1 h.1) rfl
    | x :: y :: rest => exact .filled ⟨Nat.le_add_left 2 _, nofun⟩ rfl ⟨rfl, rfl, rfl⟩
  | draw =>
    match registers, constant with
    | [], _ => exact .missing (fun h => nomatch h.1) rfl
    | [x], _ => exact .missing (fun h => Nat.not_succ_le_self 1 h.1) rfl
    | x :: y :: rest, none => exact .missing (fun h => nomatch h.2 rfl) rfl
    | x :: y :: rest, some value =>
      exact .filled ⟨Nat.le_add_left 2 _, fun _ => rfl⟩ rfl ⟨rfl, rfl, congrArg some (toNat_low value)⟩
  | skipKeyDown | skipKeyUp | readDelay | waitKey | setDelay | setSound | addIndex | loadGlyph
  | storeDecimal | storeRegs | loadRegs =>
    match registers with
    | [] => exact .missing (fun h => nomatch h.1) rfl
    | x :: rest =>
      exact .filled ⟨Nat.le_add_left 1 _, nofun⟩ rfl ⟨rfl, rfl, rfl⟩

/-- Filling depends on the first two registers and the constant. -/
theorem fill_congr (proto : Instruction) {o o' : Operands} (hformat : o.format = o'.format)
    (hregisters : o.registers.take 2 = o'.registers.take 2) (hconstant : o.constant = o'.constant) :
    proto.fill o = proto.fill o' := by
  have hindex (k : Nat) (hk : k < 2) : o.registers[k]? = o'.registers[k]? := by
    rw [← List.getElem?_take_of_lt hk, hregisters, List.getElem?_take_of_lt hk]
  have hx : o.x = o'.x := by simp only [Operands.x, Operands.supply, hindex 0 (by decide), hformat]
  have hy : o.y = o'.y := by simp only [Operands.y, Operands.supply, hindex 1 (by decide), hformat]
  have haddress : o.address = o'.address := by
    simp only [Operands.address, Operands.supply, hconstant, hformat]
  have hbyte : o.byte = o'.byte := by
    simp only [Operands.byte, Operands.supply, hconstant, hformat]
  cases proto <;> simp only [fill, hx, hy, haddress, hbyte]

/-! ## Operands in any order -/

/-- The list has a register for each register field, and a constant if there is a constant field. -/
def Enough (i : Instruction) (units : List Operand) : Prop :=
  i.registers.length ≤ (units.filterMap Operand.number?).length ∧
    (i.constant?.isSome = true → units.filterMap Operand.constant? ≠ [])

/-- The registers that are routed to fields are those of the list, reduced to the sixteen that
exist. -/
theorem registers_ofList (format : String) (units : List Operand) :
    (Operands.ofList format units).registers =
      (units.filterMap Operand.number?).map (· &&& 0xF) := by
  rw [List.map_filterMap]
  refine congrArg (List.filterMap · units) (funext fun unit => ?_)
  cases unit <;> rfl

theorem suppliedBy_ofList_iff {i : Instruction} {format : String} {units : List Operand} :
    i.SuppliedBy (.ofList format units) ↔ i.Enough units := by
  rw [SuppliedBy, registers_ofList, List.length_map, Operands.ofList, List.getLast?_isSome]
  rfl

/-- An instruction that is filled from a list has the first registers of the list, reduced modulo
sixteen, and the last constant, reduced to the range of the field. -/
theorem FilledFrom.of_list {proto i : Instruction} {format : String} {units : List Operand}
    (h : proto.FilledFrom (.ofList format units) i) :
    i.ctorIdx = proto.ctorIdx ∧
      i.registers.map UInt8.toNat =
        ((units.filterMap Operand.number?).take proto.registers.length).map (·.toNat % 16) ∧
      i.constant?.map UInt16.toNat = proto.constantRange?.bind fun range =>
        (units.filterMap Operand.constant?).getLast?.map fun value => value.toNat % range := by
  refine ⟨h.kind, ?_, h.constant⟩
  rw [h.registers, registers_ofList, ← List.map_take, List.map_map]
  exact List.map_congr_left fun r _ => toNat_and_mask r

/-- Filling from a list of operands succeeds if and only if the list has enough of them; otherwise the
fault says that the format supplies too little.  Nothing but the first two registers and the last
constant matters, wherever they stand. -/
theorem fill_routes_operands (proto : Instruction) (format : String) (units : List Operand) :
    ((∃ i, proto.fill (.ofList format units) = .ok i) ↔ proto.Enough units) ∧
      (¬ proto.Enough units →
        proto.fill (.ofList format units) = .error (.missingOperand format)) ∧
      (∀ i, proto.fill (.ofList format units) = .ok i →
        i.ctorIdx = proto.ctorIdx ∧
          i.registers.map UInt8.toNat =
            ((units.filterMap Operand.number?).take proto.registers.length).map (·.toNat % 16) ∧
          i.constant?.map UInt16.toNat = proto.constantRange?.bind fun range =>
            (units.filterMap Operand.constant?).getLast?.map fun value => value.toNat % range) ∧
      ∀ others : List Operand,
        (units.filterMap Operand.number?).take 2 = (others.filterMap Operand.number?).take 2 →
        (units.filterMap Operand.constant?).getLast? =
          (others.filterMap Operand.constant?).getLast? →
        proto.fill (.ofList format units) = proto.fill (.ofList format others) := by
  have hothers (others : List Operand)
      (hregisters : (units.filterMap Operand.number?).take 2 =
        (others.filterMap Operand.number?).take 2)
      (hconstant : (units.filterMap Operand.constant?).getLast? =
        (others.filterMap Operand.constant?).getLast?) :
      proto.fill (.ofList format units) = proto.fill (.ofList format others) := by
    refine proto.fill_congr rfl ?_ hconstant
    rw [registers_ofList, registers_ofList, ← List.map_take, hregisters, List.map_take]
  cases proto.fill_cases (.ofList format units) with
  | filled hsupplied hfill h =>
    rw [suppliedBy_ofList_iff] at hsupplied
    refine ⟨⟨fun _ => hsupplied, fun _ => ⟨_, hfill⟩⟩, fun hnot => absurd hsupplied hnot, ?_, hothers⟩
    intro i hi
    rw [hfill, Except.ok.injEq] at hi
    exact hi ▸ h.of_list
  | missing hsupplied hfill =>
    rw [suppliedBy_ofList_iff] at hsupplied
    have hnone (i : Instruction) : proto.fill (.ofList format units) ≠ .ok i := by
      rw [hfill]
      nofun
    exact ⟨⟨fun ⟨i, hi⟩ => absurd hi (hnone i), fun h => absurd h hsupplied⟩, fun _ => hfill,
      fun i hi => absurd hi (hnone i), hothers⟩

/-- A drawing instruction ignores a third register and the constants before the last, and asks for a
second register. -/
theorem fill_routes_operands_draw :
    (draw 0 0 0).fill (.ofList "DXYN" [.constant 0x1FF, .register 0x25, .register 3,
      .constant 0x305, .register 9]) = .ok (draw 5 3 5) ∧
    (draw 0 0 0).fill (.ofList "DXYN" [.constant 0x1FF, .register 0x25]) =
      .error (.missingOperand "DXYN") := by
  constructor
  · exact (fill_routes_operands (draw 0 0 0) "DXYN" _).2.2.2
      [.register 0x25, .register 3, .constant 0x305] rfl rfl
  · exact (fill_routes_operands (draw 0 0 0) "DXYN" _).2.1 fun h => Nat.not_succ_le_self 1 h.1

end Instruction

end Chip8
