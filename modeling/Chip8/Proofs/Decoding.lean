import Chip8.Decoder
import Chip8.Proofs.Opcode.Writing

/-!
# What an opcode decodes to

`Opcode.decode` searches the table of the instruction set for the formats that accept an opcode.
This module replaces the search by a condition on the instruction.  `Instruction.spelling` writes the
operands of an instruction into its format, and

* `Opcode.decode_eq_ok_iff`: an opcode decodes to the instruction that spells its nibbles, and to no
  other;
* `Opcode.decode_eq_error_iff`: an opcode fails to decode if and only if no format accepts it, and
  then the fault is that the opcode is unknown.

The table part of the argument is `filter_accepts_eq_singleton`: the formats of the instruction set
are pairwise disjoint, so at most one accepts an opcode.  The operand part is `fill_readOperands` and
`fill_operands`: the operands that a format supplies are those that its instruction needs.
-/

namespace Chip8

/-! ## Spelling -/

namespace Instruction

/-- The fields of the instruction as operands, the registers before the constant. -/
def operands : Instruction → List Operand
  | clearScreen | ret | scrollRight | scrollLeft | lowRes | highRes => []
  | scrollDown n => [.constant n.toUInt16]
  | jump addr | call addr | loadIndex addr | jumpOffset addr => [.constant addr]
  | skipEqByte x byte | skipNeByte x byte | loadByte x byte | addByte x byte | random x byte =>
    [.register x, .constant byte.toUInt16]
  | skipEqReg x y | skipNeReg x y | copy x y | or x y | and x y | xor x y | addReg x y | subReg x y
  | shiftRight x y | subFrom x y | shiftLeft x y => [.register x, .register y]
  | draw x y n => [.register x, .register y, .constant n.toUInt16]
  | skipKeyDown x | skipKeyUp x | readDelay x | waitKey x | setDelay x | setSound x | addIndex x
  | loadGlyph x | storeDecimal x | storeRegs x | loadRegs x => [.register x]

/-- The slots of the instruction's format. -/
def slots (i : Instruction) : List Slot := (Slot.ofChars i.format.toList).toOption.getD []

/-- The nibbles that the instruction spells: its format with its fields in the places of the
operands. -/
def spelling (i : Instruction) : List Nat := Slot.write [] i.slots i.operands

/-- The format of the instruction's opcode, read. -/
def pattern (i : Instruction) : Format := ⟨i.format, i.slots⟩

/-- The format of every instruction is one. -/
theorem parse_format (i : Instruction) : Format.parse i.format = .ok i.pattern := by
  cases i <;>
    simp [pattern, slots, format, Format.parse, Slot.ofChars, Slot.ofChar?, Except.map,
      Except.toOption]

theorem length_slots (i : Instruction) : i.slots.length = 4 := by
  cases i <;> simp [slots, format, Slot.ofChars, Slot.ofChar?, Except.map, Except.toOption]

/-- The fields of an instruction have the shape that its format asks for. -/
theorem takes_operands (i : Instruction) : Slot.Takes false i.slots i.operands := by
  cases i <;>
    simp [slots, format, operands, Slot.ofChars, Slot.ofChar?, Except.map, Except.toOption,
      Slot.Takes]

/-- The nibbles of the instruction's opcode, written out. -/
def nibbles : Instruction → List Nat
  | clearScreen => [0x0, 0x0, 0xE, 0x0]
  | ret => [0x0, 0x0, 0xE, 0xE]
  | scrollDown n => [0x0, 0x0, 0xC, n.toNat]
  | scrollRight => [0x0, 0x0, 0xF, 0xB]
  | scrollLeft => [0x0, 0x0, 0xF, 0xC]
  | lowRes => [0x0, 0x0, 0xF, 0xE]
  | highRes => [0x0, 0x0, 0xF, 0xF]
  | jump addr => 0x1 :: Slot.digits 3 addr.toNat
  | call addr => 0x2 :: Slot.digits 3 addr.toNat
  | skipEqByte x byte => 0x3 :: x.toNat :: Slot.digits 2 byte.toNat
  | skipNeByte x byte => 0x4 :: x.toNat :: Slot.digits 2 byte.toNat
  | skipEqReg x y => [0x5, x.toNat, y.toNat, 0x0]
  | loadByte x byte => 0x6 :: x.toNat :: Slot.digits 2 byte.toNat
  | addByte x byte => 0x7 :: x.toNat :: Slot.digits 2 byte.toNat
  | copy x y => [0x8, x.toNat, y.toNat, 0x0]
  | or x y => [0x8, x.toNat, y.toNat, 0x1]
  | and x y => [0x8, x.toNat, y.toNat, 0x2]
  | xor x y => [0x8, x.toNat, y.toNat, 0x3]
  | addReg x y => [0x8, x.toNat, y.toNat, 0x4]
  | subReg x y => [0x8, x.toNat, y.toNat, 0x5]
  | shiftRight x y => [0x8, x.toNat, y.toNat, 0x6]
  | subFrom x y => [0x8, x.toNat, y.toNat, 0x7]
  | shiftLeft x y => [0x8, x.toNat, y.toNat, 0xE]
  | skipNeReg x y => [0x9, x.toNat, y.toNat, 0x0]
  | loadIndex addr => 0xA :: Slot.digits 3 addr.toNat
  | jumpOffset addr => 0xB :: Slot.digits 3 addr.toNat
  | random x byte => 0xC :: x.toNat :: Slot.digits 2 byte.toNat
  | draw x y n => [0xD, x.toNat, y.toNat, n.toNat]
  | skipKeyDown x => [0xE, x.toNat, 0x9, 0xE]
  | skipKeyUp x => [0xE, x.toNat, 0xA, 0x1]
  | readDelay x => [0xF, x.toNat, 0x0, 0x7]
  | waitKey x => [0xF, x.toNat, 0x0, 0xA]
  | setDelay x => [0xF, x.toNat, 0x1, 0x5]
  | setSound x => [0xF, x.toNat, 0x1, 0x8]
  | addIndex x => [0xF, x.toNat, 0x1, 0xE]
  | loadGlyph x => [0xF, x.toNat, 0x2, 0x9]
  | storeDecimal x => [0xF, x.toNat, 0x3, 0x3]
  | storeRegs x => [0xF, x.toNat, 0x5, 0x5]
  | loadRegs x => [0xF, x.toNat, 0x6, 0x5]

theorem spelling_eq_nibbles (i : Instruction) : i.spelling = i.nibbles := by
  cases i <;>
    simp [spelling, nibbles, slots, format, operands, Slot.ofChars, Slot.ofChar?, Except.map,
      Except.toOption, Slot.write, Slot.runLength, Slot.digits]

/-- The fields of the instruction are no larger than the places that its format has for them. -/
def FieldsFit (i : Instruction) : Prop :=
  ∀ operand ∈ i.operands,
    match operand with
    | .register number => number.toNat < 16
    | .constant value => value.toNat < 16 ^ i.format.toList.count 'N'

/-- Fields that are spelled by nibbles fit into their places. -/
theorem fieldsFit_of_spelling {i : Instruction} (h : ∀ digit ∈ i.spelling, digit < 16) :
    i.FieldsFit := by
  rw [spelling_eq_nibbles] at h
  cases i <;>
    simp [nibbles, Slot.digits, FieldsFit, operands, format] at h ⊢ <;>
    omega

/-! ## The table -/

/-- The instruction set has one prototype for each kind of instruction, in the order of the kinds. -/
theorem exists_prototype (i : Instruction) :
    ∃ proto, all[i.ctorIdx]? = some proto ∧ proto.format = i.format ∧
      ∀ o, proto.fill o = i.fill o := by
  cases i <;> exact ⟨_, rfl, rfl, fun _ => rfl⟩

end Instruction

namespace InstructionTable

theorem ofPrototypes_eq (protos : List Instruction) :
    ofPrototypes protos = .ok (protos.map fun proto => (proto.pattern, proto)) := by
  induction protos with
  | nil => rfl
  | cons proto protos ih =>
    simp [ofPrototypes, Instruction.parse_format, ih, bind, Except.bind, pure, Except.pure]

/-- The table pairs every prototype of the instruction set with its format. -/
theorem standard_eq : standard = Instruction.all.map fun proto => (proto.pattern, proto) := by
  rw [standard, ofPrototypes_eq]
  rfl

end InstructionTable

/-! ## At most one format accepts an opcode -/

/-- Whether the slots ask for different digits. -/
def Slot.clashes : Slot → Slot → Bool
  | .fixed digit, .fixed other => digit != other
  | _, _ => false

theorem Slot.clashes_eq_false {slot other : Slot} {nibble : UInt8} (h : slot.accepts nibble)
    (hother : other.accepts nibble) : slot.clashes other = false := by
  cases slot <;> cases other <;> simp_all [accepts, clashes]

namespace Format

/-- Whether the formats ask for different digits in some place. -/
def clashes (f g : Format) : Bool :=
  (f.slots.zip g.slots).any fun place => place.1.clashes place.2

private theorem clashes_eq_false_aux (slots others : List Slot) (nibbles : List UInt8)
    (hlength : slots.length ≤ nibbles.length)
    (h : (slots.zip nibbles).all fun place => place.1.accepts place.2)
    (hothers : (others.zip nibbles).all fun place => place.1.accepts place.2) :
    (slots.zip others).any (fun place => place.1.clashes place.2) = false := by
  induction slots generalizing others nibbles with
  | nil => rfl
  | cons slot slots ih =>
    obtain _ | ⟨other, others⟩ := others
    · rfl
    obtain _ | ⟨nibble, nibbles⟩ := nibbles
    · simp at hlength
    simp only [List.zip_cons_cons, List.all_cons, Bool.and_eq_true] at h hothers
    rw [List.zip_cons_cons, List.any_cons, Slot.clashes_eq_false h.1 hothers.1, Bool.false_or]
    exact ih others nibbles (by simpa using hlength) h.2 hothers.2

/-- Formats that accept the same opcode do not clash. -/
theorem clashes_eq_false {f g : Format} (hfour : f.slots.length = 4) {w : Opcode}
    (hf : f.accepts w) (hg : g.accepts w) : f.clashes g = false :=
  clashes_eq_false_aux f.slots g.slots w.nibbles (by simp [hfour]) hf hg

end Format

namespace Instruction

/-- The formats of the instruction set clash with each other. -/
theorem pairwise_clashes_all : all.Pairwise fun i j => i.pattern.clashes j.pattern := by
  decide +kernel

/-- A format that accepts an opcode is the only one. -/
theorem filter_accepts_eq_singleton {w : Opcode} {proto : Instruction} (hmem : proto ∈ all)
    (h : proto.pattern.accepts w) : (all.filter fun i => i.pattern.accepts w) = [proto] := by
  have hpairwise := pairwise_clashes_all.filter fun i => i.pattern.accepts w
  have hproto : proto ∈ all.filter fun i => i.pattern.accepts w := List.mem_filter.mpr ⟨hmem, h⟩
  have haccepts : ∀ i ∈ all.filter fun i => i.pattern.accepts w, i.pattern.accepts w :=
    fun i hi => (List.mem_filter.mp hi).2
  generalize (all.filter fun i => i.pattern.accepts w) = accepting at *
  obtain _ | ⟨first, _ | ⟨second, rest⟩⟩ := accepting
  · simp at hproto
  · rw [List.mem_singleton.mp hproto]
  · have hclash : first.pattern.clashes second.pattern := by
      simp only [List.pairwise_cons, List.mem_cons] at hpairwise
      exact hpairwise.1 second (.inl rfl)
    have hnot := Format.clashes_eq_false first.length_slots (haccepts first (by simp))
      (haccepts second (by simp))
    simp [hnot] at hclash

end Instruction

/-! ## The fields of an instruction are the operands of its format -/

namespace Instruction

/-- The number of a register is reduced modulo sixteen. -/
theorem toNat_and_mask (r : UInt8) : (r &&& 0xF).toNat = r.toNat % 16 :=
  (UInt8.toNat_and ..).trans (Nat.and_two_pow_sub_one_eq_mod r.toNat 4)

private theorem and_mask_of_lt {r : UInt8} (h : r.toNat < 16) : r &&& 0xF = r := by
  rw [← UInt8.toNat_inj, toNat_and_mask, Nat.mod_eq_of_lt h]

/-- An instruction is filled with its own fields, provided that its registers exist. -/
theorem fill_operands (i : Instruction) (text : String)
    (h : ∀ r, .register r ∈ i.operands → r.toNat < 16) :
    i.fill (.ofList text i.operands) = .ok i := by
  cases i <;>
    simp_all [fill, Operands.ofList, operands, Operand.register?, Operand.constant?, Operands.x,
      Operands.y, Operands.byte, Operands.address, Operands.supply, and_mask_of_lt, bind,
      Except.bind, pure, Except.pure]

open Format (readOperands) in
/-- The operands that a format reads off an opcode fill every field of its instruction. -/
theorem fill_readOperands (proto : Instruction) (text : String) (w : Opcode) :
    ∃ i, proto.fill (.ofList text (readOperands none (proto.slots.zip w.nibbles))) = .ok i ∧
      i.slots = proto.slots ∧ i.operands = readOperands none (proto.slots.zip w.nibbles) := by
  obtain ⟨a, b, c, d, hw, hb, hc, hd⟩ : ∃ a b c d : UInt8, w.nibbles = [a, b, c, d] ∧
      b.toNat < 16 ∧ c.toNat < 16 ∧ d.toNat < 16 :=
    ⟨_, _, _, _, rfl, Opcode.nibble_lt (w := w) (by simp [Opcode.nibbles]),
      Opcode.nibble_lt (w := w) (by simp [Opcode.nibbles]),
      Opcode.nibble_lt (w := w) (by simp [Opcode.nibbles])⟩
  -- The two digits of a byte constant stay below 256, so the byte field loses nothing.
  have hbyte : c.toUInt16 <<< 4 % (256 : UInt16) = c.toUInt16 <<< 4 := by
    apply UInt16.toNat_inj.mp
    rw [UInt16.toNat_mod, UInt16.toNat_shiftLeft, UInt8.toNat_toUInt16, Nat.shiftLeft_eq]
    simp
    omega
  rw [hw]
  cases proto <;>
    simp [slots, format, Slot.ofChars, Slot.ofChar?, Except.map, Except.toOption, readOperands,
      Format.closeRun, fill, Operands.ofList, Operand.register?, Operand.constant?, Operands.x,
      Operands.y, Operands.byte, Operands.address, Operands.supply, and_mask_of_lt, bind,
      Except.bind, pure, Except.pure, operands, hb, hc, hbyte]

end Instruction

/-! ## Decoding -/

namespace Opcode

open Format (readOperands)

/-- The entries of the table whose formats accept an opcode. -/
private theorem filter_standard (w : Opcode) :
    (InstructionTable.standard.filter fun (format, _) => format.accepts w) =
      (Instruction.all.filter fun i => i.pattern.accepts w).map fun proto =>
        (proto.pattern, proto) := by
  rw [InstructionTable.standard_eq, List.filter_map]
  rfl

/-- An opcode that a format accepts is decoded by it. -/
theorem decode_of_accepts {w : Opcode} {proto : Instruction} (hmem : proto ∈ Instruction.all)
    (h : proto.pattern.accepts w) :
    w.decode =
      proto.fill (.ofList proto.format (readOperands none (proto.slots.zip w.nibbles))) := by
  have hfilter := Instruction.filter_accepts_eq_singleton hmem h
  rw [decode, InstructionTable.decode, filter_standard, hfilter, List.map_singleton]
  simp only [Format.operands, h, if_true]
  rfl

/-- An opcode that no format accepts is unknown. -/
theorem decode_of_rejects {w : Opcode}
    (h : ∀ proto ∈ Instruction.all, ¬ proto.pattern.accepts w) :
    w.decode = .error (.unknownOpcode w) := by
  have hfilter : (Instruction.all.filter fun i => i.pattern.accepts w) = [] := by
    simpa [List.filter_eq_nil_iff] using h
  rw [decode, InstructionTable.decode, filter_standard, hfilter, List.map_nil]

/-- Either a format accepts an opcode and its operands are the fields of the instruction, or none
does and the opcode is unknown. -/
theorem decode_cases (w : Opcode) :
    (∃ proto ∈ Instruction.all, proto.pattern.accepts w ∧
      ∃ i, w.decode = .ok i ∧ i.slots = proto.slots ∧
        i.operands = readOperands none (proto.slots.zip w.nibbles)) ∨
      (∀ proto ∈ Instruction.all, ¬ proto.pattern.accepts w) ∧
        w.decode = .error (.unknownOpcode w) := by
  by_cases hknown : ∃ proto ∈ Instruction.all, proto.pattern.accepts w
  · obtain ⟨proto, hmem, haccepts⟩ := hknown
    obtain ⟨i, hfill, hslots, hoperands⟩ := proto.fill_readOperands proto.format w
    rw [← decode_of_accepts hmem haccepts] at hfill
    exact .inl ⟨proto, hmem, haccepts, i, hfill, hslots, hoperands⟩
  · have hrejects : ∀ proto ∈ Instruction.all, ¬ proto.pattern.accepts w :=
      fun proto hmem haccepts => hknown ⟨proto, hmem, haccepts⟩
    exact .inr ⟨hrejects, decode_of_rejects hrejects⟩

/-- An opcode decodes to the instruction that spells its nibbles. -/
theorem decode_eq_ok_iff {w : Opcode} {i : Instruction} :
    w.decode = .ok i ↔ i.spelling = w.nibbles.map UInt8.toNat := by
  constructor
  · intro h
    rcases w.decode_cases with ⟨proto, -, haccepts, i', hok, hslots, hoperands⟩ | ⟨-, herror⟩
    · rw [hok, Except.ok.injEq] at h
      rw [← h, Instruction.spelling, hslots, hoperands]
      exact Format.write_readOperands proto.length_slots haccepts
    · rw [herror] at h
      cases h
  · intro h
    obtain ⟨haccepts, hread⟩ := Format.readOperands_of_write (f := i.pattern) i.length_slots
      i.takes_operands h
    obtain ⟨proto, hmem, hformat, hfill⟩ := i.exists_prototype
    have hpattern : proto.pattern = i.pattern := by
      rw [Instruction.pattern, Instruction.pattern, Instruction.slots, Instruction.slots, hformat]
    rw [decode_of_accepts (List.mem_of_getElem? hmem) (hpattern ▸ haccepts), hfill, hformat]
    have hslots : proto.slots = i.slots := congrArg Format.slots hpattern
    have hread' : readOperands none (i.slots.zip w.nibbles) = i.operands := hread
    rw [hslots, hread']
    refine i.fill_operands i.format fun r hr => ?_
    rw [← hread'] at hr
    exact nibble_lt (Format.mem_nibbles_of_register_mem hr)

/-- The nibbles of an opcode are those of its instruction. -/
theorem nibbles_of_decode_eq {w : Opcode} {i : Instruction} (h : w.decode = .ok i) :
    i.nibbles = [w.toNat / 4096, w.toNat / 256 % 16, w.toNat / 16 % 16, w.toNat % 16] := by
  rw [← i.spelling_eq_nibbles, decode_eq_ok_iff.mp h, map_toNat_nibbles]

theorem decode_of_nibbles_eq {w : Opcode} {i : Instruction}
    (h : i.nibbles = [w.toNat / 4096, w.toNat / 256 % 16, w.toNat / 16 % 16, w.toNat % 16]) :
    w.decode = .ok i := by
  rw [decode_eq_ok_iff, i.spelling_eq_nibbles, h, map_toNat_nibbles]

/-- An opcode fails to decode if no format accepts it, and then it is unknown. -/
theorem decode_eq_error_iff {w : Opcode} {fault : Fault} :
    w.decode = .error fault ↔
      (∀ proto ∈ Instruction.all, ¬ proto.pattern.accepts w) ∧ fault = .unknownOpcode w := by
  constructor
  · intro h
    rcases w.decode_cases with ⟨_, -, -, i, hok, -⟩ | ⟨hrejects, herror⟩
    · rw [hok] at h
      cases h
    · rw [herror, Except.error.injEq] at h
      exact ⟨hrejects, h.symm⟩
  · rintro ⟨hrejects, rfl⟩
    exact decode_of_rejects hrejects

/-- The format of an instruction fits an opcode if its pattern accepts it. -/
theorem fits_format (w : Opcode) (i : Instruction) :
    w.fits i.format = .ok (i.pattern.accepts w) := by
  rw [fits, i.parse_format]
  rfl

/-- An opcode can be decoded if a format of the instruction set fits it. -/
theorem exists_decode_eq_ok_iff {w : Opcode} :
    (∃ i, w.decode = .ok i) ↔ ∃ proto ∈ Instruction.all, w.fits proto.format = .ok true := by
  simp only [fits_format, Except.ok.injEq]
  rcases w.decode_cases with ⟨proto, hmem, haccepts, i, hok, -⟩ | ⟨hrejects, herror⟩
  · exact ⟨fun _ => ⟨proto, hmem, haccepts⟩, fun _ => ⟨i, hok⟩⟩
  · constructor
    · rintro ⟨i, hok⟩
      rw [herror] at hok
      cases hok
    · rintro ⟨proto, hmem, haccepts⟩
      exact absurd haccepts (hrejects proto hmem)

/-- The fields of a decoded instruction fit into the places that its format has for them. -/
theorem fieldsFit_of_decode_eq {w : Opcode} {i : Instruction} (h : w.decode = .ok i) :
    i.FieldsFit := by
  refine Instruction.fieldsFit_of_spelling fun digit hdigit => ?_
  rw [decode_eq_ok_iff.mp h] at hdigit
  obtain ⟨nibble, hnibble, rfl⟩ := List.mem_map.mp hdigit
  exact nibble_lt hnibble

/-- Different opcodes decode to different instructions. -/
theorem eq_of_decode_eq {w w' : Opcode} {i : Instruction} (h : w.decode = .ok i)
    (h' : w'.decode = .ok i) : w = w' := by
  rw [decode_eq_ok_iff] at h h'
  exact eq_of_nibbles_eq (h.symm.trans h')

end Opcode

end Chip8
