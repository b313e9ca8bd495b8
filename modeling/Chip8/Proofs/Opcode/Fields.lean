import Chip8.Proofs.Opcode.Writing
import Chip8.Proofs.Text.Hex

/-!
# The fields of a format

Read as a text, a format is a row of fields: digits, registers, and runs of `N`s that are as long as they
can be.  The operands of an opcode are what the hexadecimal text of the opcode has in the place of the
registers and of the runs.

* `Field.ofChars`, `Field.Fits` and `Field.spell`: the fields of a text, the operands that fit them, and
  the text with the operands filled in.
* `Field.Spread`: fields and the slots that they cover.  It carries the shape of operands over to
  `Slot.Takes` and their text over to `Slot.write` (`Spread.write_of_fits`), and finds operands for all
  nibbles that the slots accept (`Spread.exists_fits`).
* `Format.operands_bijection`: operands that fit a format and opcodes that it accepts are the same.
-/

namespace Chip8

open Text (Hex.digit Hex.padded)

/-- The four hexadecimal digits of an opcode. -/
def Opcode.hex (w : Opcode) : List Char := (Hex.padded 4 w.toNat).toList

theorem Opcode.hex_eq (w : Opcode) :
    w.hex = (w.nibbles.map UInt8.toNat).map Hex.digit := by
  have hlt := toNat_lt w
  have hfirst : w.toNat / 16 / 16 / 16 < 16 := by omega
  have hhigh : w.toNat / 16 / 16 / 16 = w.toNat / 4096 := by omega
  have hsecond : w.toNat / 16 / 16 % 16 = w.toNat / 256 % 16 := by omega
  rw [hex, Text.Hex.toList_padded_succ (by decide), Text.Hex.toList_padded_succ (by decide),
    Text.Hex.toList_padded_succ (by decide), Text.Hex.toList_padded_one hfirst, hhigh, hsecond,
    map_toNat_nibbles]
  rfl

/-- A field of a format. -/
inductive Field where
  /-- A digit that the opcode has in this place. -/
  | digit (c : Char)
  /-- A register. -/
  | register
  /-- A constant of `width` digits. -/
  | constant (width : Nat)

namespace Field

/-! ## Fields, operands and texts -/

/-- Fields with an `N` before them, which makes a constant at their front longer. -/
def lengthen : List Field → List Field
  | constant width :: fields => constant (width + 1) :: fields
  | fields => constant 1 :: fields

/-- The fields of a text in upper case. -/
def ofChars : List Char → List Field
  | [] => []
  | c :: rest =>
    if c = 'X' ∨ c = 'Y' then register :: ofChars rest
    else if c = 'N' then lengthen (ofChars rest)
    else digit c :: ofChars rest

/-- The operands are one register for each register and one constant for each constant, in this order,
and none of them needs more digits than its field has. -/
inductive Fits : List Field → List Operand → Prop
  | nil : Fits [] []
  | digit {c : Char} {fields : List Field} {operands : List Operand} (h : Fits fields operands) :
      Fits (digit c :: fields) operands
  | register {number : UInt8} {fields : List Field} {operands : List Operand}
      (hnumber : number.toNat < 16) (h : Fits fields operands) :
      Fits (register :: fields) (.register number :: operands)
  | constant {width : Nat} {value : UInt16} {fields : List Field} {operands : List Operand}
      (hvalue : value.toNat < 16 ^ width) (h : Fits fields operands) :
      Fits (constant width :: fields) (.constant value :: operands)

/-- The text of the fields with the operands filled in. -/
def spell : List Field → List Operand → List Char
  | digit c :: fields, operands => c :: spell fields operands
  | register :: fields, .register number :: operands =>
    (Hex.padded 1 number.toNat).toList ++ spell fields operands
  | constant width :: fields, .constant value :: operands =>
    (Hex.padded width value.toNat).toList ++ spell fields operands
  | _, _ => []

end Field

namespace Slot

/-! ## Characters and slots -/

/-- The character leaves the nibble in its place open. -/
def Open (c : Char) : Prop := c = 'X' ∨ c = 'Y' ∨ c = 'N'

/-- The values of the characters from `0` to `9`. -/
private theorem digit_of_decimal : ∀ n < 58, 48 ≤ n →
    (n - 48).toUInt8.toNat < 16 ∧ Hex.digit (n - 48).toUInt8.toNat = Char.ofNat n := by
  decide

/-- The values of the characters from `A` to `F`. -/
private theorem digit_of_letter : ∀ n < 71, 65 ≤ n →
    (n - 65 + 10).toUInt8.toNat < 16 ∧ Hex.digit (n - 65 + 10).toUInt8.toNat = Char.ofNat n := by
  decide

/-- What the slot of a character is. -/
theorem ofChar?_cases {c : Char} {slot : Slot} (h : ofChar? c = some slot) :
    ((c.toUpper = 'X' ∨ c.toUpper = 'Y') ∧ slot = .register) ∨
    (c.toUpper = 'N' ∧ slot = .constant) ∨
    (¬ Open c.toUpper ∧ ∃ value : UInt8, slot = .fixed value ∧ value.toNat < 16 ∧
      Hex.digit value.toNat = c.toUpper) := by
  simp only [ofChar?] at h
  generalize c.toUpper = c at h ⊢
  split at h
  · rename_i hregister
    exact .inl ⟨hregister, (Option.some.inj h).symm⟩
  rename_i hregister
  split at h
  · rename_i hconstant
    exact .inr (.inl ⟨hconstant, (Option.some.inj h).symm⟩)
  rename_i hconstant
  have hclosed : ¬ Open c := by
    rw [Open, ← or_assoc]
    exact not_or.mpr ⟨hregister, hconstant⟩
  split at h
  · rename_i hdecimal
    have hfirst : 48 ≤ c.toNat := Char.le_def.mp hdecimal.1
    have hlast : c.toNat ≤ 57 := Char.le_def.mp hdecimal.2
    have hvalue := digit_of_decimal c.toNat (by omega) hfirst
    rw [Char.ofNat_toNat] at hvalue
    exact .inr (.inr ⟨hclosed, _, (Option.some.inj h).symm, hvalue⟩)
  split at h
  · rename_i hletter
    have hfirst : 65 ≤ c.toNat := Char.le_def.mp hletter.1
    have hlast : c.toNat ≤ 70 := Char.le_def.mp hletter.2
    have hvalue := digit_of_letter c.toNat (by omega) hfirst
    rw [Char.ofNat_toNat] at hvalue
    exact .inr (.inr ⟨hclosed, _, (Option.some.inj h).symm, hvalue⟩)
  · cases h

/-- A nibble may stand in the slot of a character if it is the digit there, or if there is none. -/
theorem accepts_iff {c : Char} {slot : Slot} (h : ofChar? c = some slot) {nibble : UInt8}
    (hnibble : nibble.toNat < 16) :
    slot.accepts nibble = true ↔ Open c.toUpper ∨ c.toUpper = Hex.digit nibble.toNat := by
  obtain ⟨hregister, rfl⟩ | ⟨hconstant, rfl⟩ | ⟨hclosed, value, rfl, hvalue, hdigit⟩ :=
    ofChar?_cases h
  · exact iff_of_true rfl (.inl (hregister.imp_right .inl))
  · exact iff_of_true rfl (.inl (.inr (.inr hconstant)))
  · rw [accepts, beq_iff_eq, or_iff_right hclosed, ← hdigit]
    refine ⟨fun heq => by rw [heq], fun heq => UInt8.toNat_inj.mp ?_⟩
    exact Text.Hex.digit_injective _ hvalue _ hnibble heq

theorem ofChars_cons {c : Char} {chars : List Char} {slots : List Slot}
    (h : ofChars (c :: chars) = .ok slots) :
    ∃ slot rest, ofChar? c = some slot ∧ ofChars chars = .ok rest ∧ slots = slot :: rest := by
  rw [ofChars] at h
  split at h
  · cases h
  · rename_i slot hslot
    cases hrest : ofChars chars with
    | error c => simp [hrest, Except.map] at h
    | ok rest => exact ⟨slot, rest, hslot, rfl, by simpa [hrest, Except.map, eq_comm] using h⟩

theorem length_ofChars {chars : List Char} {slots : List Slot} (h : ofChars chars = .ok slots) :
    slots.length = chars.length := by
  induction chars generalizing slots with
  | nil =>
    cases h
    rfl
  | cons c chars ih =>
    obtain ⟨slot, rest, -, hrest, rfl⟩ := ofChars_cons h
    rw [List.length_cons, List.length_cons, ih hrest]

/-- Nibbles may stand in the slots of a text if they are the digits in it, with the open places left
out. -/
theorem all_accepts_iff {chars : List Char} {slots : List Slot} (h : ofChars chars = .ok slots)
    {nibbles : List UInt8} (hlength : nibbles.length = chars.length)
    (hnibbles : ∀ nibble ∈ nibbles, nibble.toNat < 16) :
    ((slots.zip nibbles).all fun (slot, nibble) => slot.accepts nibble) = true ↔
      List.Forall₂ (fun c d => Open c ∨ c = d) (chars.map Char.toUpper)
        ((nibbles.map UInt8.toNat).map Hex.digit) := by
  induction chars generalizing slots nibbles with
  | nil =>
    obtain rfl : nibbles = [] := List.length_eq_zero_iff.mp hlength
    simp
  | cons c chars ih =>
    obtain ⟨slot, rest, hslot, hrest, rfl⟩ := ofChars_cons h
    obtain _ | ⟨nibble, nibbles⟩ := nibbles
    · simp at hlength
    simp only [List.length_cons, Nat.add_right_cancel_iff] at hlength
    simp only [List.mem_cons, forall_eq_or_imp] at hnibbles
    simp only [List.zip_cons_cons, List.all_cons, Bool.and_eq_true, List.map_cons,
      List.forall₂_cons, accepts_iff hslot hnibbles.1, ih hrest hlength hnibbles.2]

/-! ## Runs -/

section Runs

variable {slots : List Slot} {operands : List Operand}

theorem runLength_replicate (width : Nat) :
    runLength (List.replicate width .constant ++ slots) = width + runLength slots := by
  induction width with
  | zero => simp
  | succ width ih =>
    rw [List.replicate_succ, List.cons_append, runLength, ih]
    omega

theorem takes_replicate (width : Nat) :
    Takes true (List.replicate width .constant ++ slots) operands ↔ Takes true slots operands := by
  induction width with
  | zero => rfl
  | succ width ih =>
    rw [List.replicate_succ, List.cons_append, Takes]
    exact ih

/-- Where no run goes on it does not matter whether there has been one. -/
theorem takes_of_runLength (h : runLength slots = 0) :
    Takes true slots operands ↔ Takes false slots operands := by
  cases slots with
  | nil => rfl
  | cons slot slots =>
    cases slot with
    | fixed value => rfl
    | register => rcases operands with _ | ⟨_ | _, _⟩ <;> rfl
    | constant => simp [runLength] at h

/-- The digits of a run that has been begun are written as they are. -/
theorem write_run (run : List Nat) :
    write run (List.replicate run.length .constant ++ slots) operands = run ++ write [] slots operands := by
  induction run with
  | nil => rfl
  | cons digit run ih =>
    rw [List.length_cons, List.replicate_succ, List.cons_append, write, ih]
    rfl

/-- A whole run is written as the digits of its constant. -/
theorem write_constant {width : Nat} (hwidth : 0 < width) (hstop : runLength slots = 0)
    (value : UInt16) :
    write [] (List.replicate width .constant ++ slots) (.constant value :: operands) =
      digits width value.toNat ++ write [] slots operands := by
  obtain ⟨width, rfl⟩ := Nat.exists_eq_succ_of_ne_zero (Nat.ne_of_gt hwidth)
  have hlength := length_digits (width + 1) value.toNat
  rw [List.replicate_succ, List.cons_append, write, runLength_replicate, hstop, Nat.add_zero]
  cases hdigits : digits (width + 1) value.toNat with
  | nil => simp [hdigits] at hlength
  | cons digit run =>
    rw [hdigits, List.length_cons, Nat.add_right_cancel_iff] at hlength
    have hrun : write run (List.replicate run.length .constant ++ slots) operands =
        run ++ write [] slots operands := write_run run
    rw [hlength] at hrun
    exact congrArg (digit :: ·) hrun

end Runs

end Slot

namespace Field

open Slot (Takes write runLength digits)

/-! ## Fields and slots -/

/-- The slots are those that the fields cover. -/
inductive Spread : List Field → List Slot → Prop
  | nil : Spread [] []
  | digit {c : Char} {value : UInt8} {fields : List Field} {slots : List Slot}
      (hvalue : value.toNat < 16) (hc : Hex.digit value.toNat = c) (h : Spread fields slots) :
      Spread (digit c :: fields) (.fixed value :: slots)
  | register {fields : List Field} {slots : List Slot} (h : Spread fields slots) :
      Spread (register :: fields) (.register :: slots)
  | constant {width : Nat} {fields : List Field} {slots : List Slot} (hwidth : 0 < width)
      (hstop : runLength slots = 0) (h : Spread fields slots) :
      Spread (constant width :: fields) (List.replicate width .constant ++ slots)

theorem Spread.lengthen {fields : List Field} {slots : List Slot} (h : Spread fields slots) :
    Spread (lengthen fields) (.constant :: slots) := by
  cases h with
  | nil => exact .constant Nat.one_pos rfl .nil
  | digit hvalue hc h => exact .constant Nat.one_pos rfl (.digit hvalue hc h)
  | register h => exact .constant Nat.one_pos rfl (.register h)
  | constant hwidth hstop h => exact .constant (Nat.succ_pos _) hstop h

/-- The fields of a text cover the slots of its characters. -/
theorem spread_ofChars {chars : List Char} {slots : List Slot} (h : Slot.ofChars chars = .ok slots) :
    Spread (ofChars (chars.map Char.toUpper)) slots := by
  induction chars generalizing slots with
  | nil =>
    cases h
    exact .nil
  | cons c chars ih =>
    obtain ⟨slot, rest, hslot, hrest, rfl⟩ := Slot.ofChars_cons h
    rw [List.map_cons, ofChars]
    obtain ⟨hregister, rfl⟩ | ⟨hconstant, rfl⟩ | ⟨hclosed, value, rfl, hvalue, hdigit⟩ :=
      Slot.ofChar?_cases hslot
    · rw [if_pos hregister]
      exact .register (ih hrest)
    · rw [if_neg (by simp [hconstant]), if_pos hconstant]
      exact (ih hrest).lengthen
    · simp only [Slot.Open, not_or] at hclosed
      rw [if_neg (not_or.mpr ⟨hclosed.1, hclosed.2.1⟩), if_neg hclosed.2.2]
      exact .digit hvalue hdigit (ih hrest)

/-- A padded constant has the digits of the constant. -/
theorem toList_padded_eq {width value : Nat} (hwidth : 0 < width) (h : value < 16 ^ width) :
    (Hex.padded width value).toList = (digits width value).map Hex.digit := by
  fun_induction digits width value with
  | case1 => simp at hwidth
  | case2 value => exact Text.Hex.toList_padded_one (by simpa using h)
  | case3 width value ih =>
    have hrest : value / 16 < 16 ^ (width + 1) := by
      rw [Nat.pow_succ] at h
      omega
    rw [Text.Hex.toList_padded_succ (Nat.succ_pos width), ih (Nat.succ_pos width) hrest,
      List.map_append]
    rfl

namespace Spread

variable {fields : List Field} {slots : List Slot}

/-- Operands that fit have the shape that the slots ask for, and they are written there as their text
tells, with a digit for each slot. -/
theorem write_of_fits (h : Spread fields slots) {operands : List Operand}
    (hfits : Fits fields operands) :
    Takes false slots operands ∧
      spell fields operands = (write [] slots operands).map Hex.digit ∧
      (∀ digit ∈ write [] slots operands, digit < 16) ∧
      (write [] slots operands).length = slots.length := by
  induction h generalizing operands with
  | nil =>
    cases hfits
    exact ⟨rfl, rfl, by simp [write], rfl⟩
  | digit hvalue hc h ih =>
    cases hfits with
    | digit hfits =>
      obtain ⟨htakes, hspell, hdigits, hlength⟩ := ih hfits
      refine ⟨htakes, ?_, ?_, ?_⟩
      · rw [spell, write, List.map_cons, hc, hspell]
      · rw [write]
        exact List.forall_mem_cons.mpr ⟨hvalue, hdigits⟩
      · rw [write, List.length_cons, List.length_cons, hlength]
  | register h ih =>
    cases hfits with
    | register hnumber hfits =>
      obtain ⟨htakes, hspell, hdigits, hlength⟩ := ih hfits
      refine ⟨htakes, ?_, ?_, ?_⟩
      · rw [spell, write, List.map_cons, Text.Hex.toList_padded_one hnumber, hspell]
        rfl
      · rw [write]
        exact List.forall_mem_cons.mpr ⟨hnumber, hdigits⟩
      · rw [write, List.length_cons, List.length_cons, hlength]
  | constant hwidth hstop h ih =>
    cases hfits with
    | constant hvalue hfits =>
      obtain ⟨htakes, hspell, hdigits, hlength⟩ := ih hfits
      rw [Slot.write_constant hwidth hstop]
      refine ⟨?_, ?_, ?_, ?_⟩
      · obtain ⟨width, rfl⟩ := Nat.exists_eq_succ_of_ne_zero (Nat.ne_of_gt hwidth)
        exact (Slot.takes_replicate width).mpr ((Slot.takes_of_runLength hstop).mpr htakes)
      · rw [spell, List.map_append, toList_padded_eq hwidth hvalue, hspell]
      · exact List.forall_mem_append.mpr ⟨Slot.digits_lt hvalue, hdigits⟩
      · rw [List.length_append, List.length_append, Slot.length_digits, List.length_replicate, hlength]

/-- All nibbles that the slots accept are spelled by operands that fit. -/
theorem exists_fits (h : Spread fields slots) {nibbles : List UInt8}
    (hlength : nibbles.length = slots.length) (hfour : slots.length ≤ 4)
    (hnibbles : ∀ nibble ∈ nibbles, nibble.toNat < 16)
    (haccepts : ∀ place ∈ slots.zip nibbles, place.1.accepts place.2) :
    ∃ operands, Fits fields operands ∧ write [] slots operands = nibbles.map UInt8.toNat := by
  induction h generalizing nibbles with
  | nil =>
    obtain rfl : nibbles = [] := List.length_eq_zero_iff.mp hlength
    exact ⟨[], .nil, rfl⟩
  | @digit _ value _ slots hvalue hc h ih =>
    obtain _ | ⟨nibble, nibbles⟩ := nibbles
    · simp at hlength
    simp only [List.length_cons, Nat.add_right_cancel_iff] at hlength hfour
    simp only [List.zip_cons_cons, List.forall_mem_cons] at hnibbles haccepts
    obtain ⟨operands, hfits, hwrite⟩ := ih hlength (by omega) hnibbles.2 haccepts.2
    have hdigit : value = nibble := by simpa [Slot.accepts] using haccepts.1
    exact ⟨operands, .digit hfits, by rw [write, hwrite, hdigit, List.map_cons]⟩
  | register h ih =>
    obtain _ | ⟨nibble, nibbles⟩ := nibbles
    · simp at hlength
    simp only [List.length_cons, Nat.add_right_cancel_iff] at hlength hfour
    simp only [List.zip_cons_cons, List.forall_mem_cons] at hnibbles haccepts
    obtain ⟨operands, hfits, hwrite⟩ := ih hlength (by omega) hnibbles.2 haccepts.2
    exact ⟨.register nibble :: operands, .register hnibbles.1 hfits, by
      rw [write, hwrite, List.map_cons]⟩
  | @constant width _ slots hwidth hstop h ih =>
    rw [List.length_append, List.length_replicate] at hlength hfour
    obtain ⟨run, rest, rfl, hrun⟩ : ∃ run rest, nibbles = run ++ rest ∧ run.length = width :=
      ⟨nibbles.take width, nibbles.drop width, (List.take_append_drop width nibbles).symm,
        by rw [List.length_take]; omega⟩
    rw [List.length_append] at hlength
    rw [List.forall_mem_append] at hnibbles
    rw [List.zip_append (by rw [List.length_replicate, hrun]), List.forall_mem_append] at haccepts
    obtain ⟨operands, hfits, hwrite⟩ := ih (by omega) (by omega) hnibbles.2 haccepts.2
    obtain ⟨hdigits, hroom⟩ := Slot.digits_appendDigits (List.forall_mem_map.mpr hnibbles.1)
    rw [List.length_map, hrun] at hdigits hroom
    have hword : 16 ^ width ≤ 65536 := Nat.pow_le_pow_right (by decide) (by omega : width ≤ 4)
    obtain ⟨value, hvalue⟩ : ∃ value : UInt16,
        value.toNat = Slot.appendDigits 0 (run.map UInt8.toNat) :=
      ⟨(Slot.appendDigits 0 (run.map UInt8.toNat)).toUInt16, Nat.mod_eq_of_lt (by omega)⟩
    refine ⟨.constant value :: operands, .constant (hvalue ▸ hroom) hfits, ?_⟩
    rw [Slot.write_constant hwidth hstop, hvalue, hdigits, hwrite, List.map_append]

end Spread

end Field

namespace Format

open Slot (write)

/-! ## Formats -/

/-- What a text has to be for it to be read as a format. -/
theorem parse_cases (text : String) :
    (∃ reason, parse text = .error (.malformedFormat text reason)) ∨
    ∃ slots, Slot.ofChars text.toList = .ok slots ∧ slots.length = 4 ∧
      parse text = .ok { text := String.ofList (text.toList.map Char.toUpper), slots } := by
  simp only [parse]
  split
  · exact .inl ⟨_, rfl⟩
  · rename_i hfour
    rw [not_not] at hfour
    cases hslots : Slot.ofChars text.toList with
    | error c => exact .inl ⟨_, rfl⟩
    | ok slots => exact .inr ⟨slots, rfl, (Slot.length_ofChars hslots).trans hfour, rfl⟩

section Fields

variable {f : Format} {chars : List Char} (hslots : Slot.ofChars chars = .ok f.slots)
  (hfour : f.slots.length = 4)

include hslots hfour

/-- A format accepts an opcode if the fixed digits of its text are those of the opcode. -/
theorem accepts_iff_hex (w : Opcode) :
    f.accepts w = true ↔
      List.Forall₂ (fun c d => Slot.Open c ∨ c = d) (chars.map Char.toUpper) w.hex := by
  have hlength : w.nibbles.length = chars.length := by
    rw [← Slot.length_ofChars hslots, hfour, Opcode.length_nibbles]
  rw [w.hex_eq]
  exact Slot.all_accepts_iff hslots hlength fun _ => Opcode.nibble_lt

/-- The operands of an opcode that is accepted fit the fields, and with them the text is the opcode. -/
theorem fits_of_accepts {w : Opcode} (haccepts : f.accepts w = true) :
    ∃ operands, f.operands w = .ok operands ∧
      Field.Fits (Field.ofChars (chars.map Char.toUpper)) operands ∧
      Field.spell (Field.ofChars (chars.map Char.toUpper)) operands = w.hex := by
  have hspread := Field.spread_ofChars hslots
  have hlength : w.nibbles.length = f.slots.length := by rw [hfour, Opcode.length_nibbles]
  obtain ⟨operands, hfits, hwrite⟩ := hspread.exists_fits hlength (Nat.le_of_eq hfour)
    (fun _ => Opcode.nibble_lt) (List.all_eq_true.mp haccepts)
  obtain ⟨htakes, hspell, -⟩ := hspread.write_of_fits hfits
  have hread := (readOperands_of_write hfour htakes hwrite).2
  refine ⟨operands, ?_, hfits, ?_⟩
  · rw [Format.operands, if_pos haccepts, hread]
  · rw [hspell, hwrite, w.hex_eq]

/-- Operands that fit the fields are those of one opcode, which the text becomes with them. -/
theorem exists_opcode_of_fits {operands : List Operand}
    (hfits : Field.Fits (Field.ofChars (chars.map Char.toUpper)) operands) :
    ∃ w : Opcode, Field.spell (Field.ofChars (chars.map Char.toUpper)) operands = w.hex ∧
      ∀ w', f.operands w' = .ok operands ↔ w' = w := by
  obtain ⟨htakes, hspell, hdigits, hlength⟩ := (Field.spread_ofChars hslots).write_of_fits hfits
  obtain ⟨w, hw⟩ := Opcode.exists_nibbles_eq (hlength.trans hfour) hdigits
  refine ⟨w, by rw [hspell, ← hw, w.hex_eq], fun w' => ⟨fun hoperands => ?_, ?_⟩⟩
  · rw [Format.operands] at hoperands
    split at hoperands
    · rename_i haccepts
      have hwrite := write_readOperands hfour haccepts
      rw [Except.ok.inj hoperands, ← hw] at hwrite
      exact (Opcode.eq_of_nibbles_eq hwrite).symm
    · cases hoperands
  · rintro rfl
    obtain ⟨haccepts, hread⟩ := readOperands_of_write hfour htakes hw.symm
    rw [Format.operands, if_pos haccepts, hread]

end Fields

/-- A text that is no format fails alike for all opcodes.  A format accepts the opcodes that have its
fixed digits, and the others fail as no match of its text in upper case.  Between the opcodes that it
accepts and the operands that fit its fields, one register for each register and one constant for each
run, there is a bijection: with its operands filled in the text is the opcode, and operands that fit are
those of one opcode. -/
theorem operands_bijection (text : String) :
    let upper := text.toList.map Char.toUpper
    let fields := Field.ofChars upper
    (∀ fault, parse text = .error fault →
      (∃ reason, fault = .malformedFormat text reason) ∧
        ∀ w : Opcode, w.fits text = .error fault ∧ w.operandsBy text = .error fault) ∧
    ∀ f, parse text = .ok f →
      (∀ w : Opcode,
        w.fits text = .ok (f.accepts w) ∧ w.operandsBy text = f.operands w ∧
        (f.accepts w = true ↔
          List.Forall₂ (fun c d => c = 'X' ∨ c = 'Y' ∨ c = 'N' ∨ c = d) upper w.hex) ∧
        (f.accepts w = false →
          f.operands w = .error (.formatMismatch w (String.ofList upper))) ∧
        (f.accepts w = true →
          ∃ operands, f.operands w = .ok operands ∧ Field.Fits fields operands ∧
            Field.spell fields operands = w.hex)) ∧
      ∀ operands, Field.Fits fields operands →
        ∃ w : Opcode, Field.spell fields operands = w.hex ∧
          ∀ w', f.operands w' = .ok operands ↔ w' = w := by
  intro upper fields
  obtain ⟨reason, hparse⟩ | ⟨slots, hslots, hfour, hparse⟩ := parse_cases text
  · refine ⟨fun fault hfault => ?_, fun f hf => ?_⟩
    · obtain rfl : Fault.malformedFormat text reason = fault :=
        Except.error.inj (hparse.symm.trans hfault)
      refine ⟨⟨reason, rfl⟩, fun w => ⟨?_, ?_⟩⟩
      · rw [Opcode.fits, hparse]
        rfl
      · rw [Opcode.operandsBy, hparse]
        rfl
    · rw [hparse] at hf
      cases hf
  · refine ⟨fun fault hfault => ?_, fun f hf => ?_⟩
    · rw [hparse] at hfault
      cases hfault
    · obtain rfl := Except.ok.inj (hparse.symm.trans hf)
      refine ⟨fun w => ⟨?_, ?_, ?_, fun hrejects => ?_, fits_of_accepts hslots hfour⟩,
        fun operands hfits => exists_opcode_of_fits hslots hfour hfits⟩
      · rw [Opcode.fits, hparse]
        rfl
      · rw [Opcode.operandsBy, hparse]
        rfl
      · rw [accepts_iff_hex hslots hfour]
        simp only [Slot.Open, or_assoc]
        rfl
      · rw [Format.operands, if_neg (by rw [hrejects]; decide)]

/-- A format whose constants stand apart has one operand for each of them. -/
theorem operands_bijection_apart :
    ∃ f, parse "NxNN" = .ok f ∧
      ∃ w : Opcode, w.hex = ['1', '2', '3', '4'] ∧
        ∀ w', f.operands w' = .ok [.constant 0x1, .register 0x2, .constant 0x34] ↔ w' = w := by
  obtain ⟨f, hf⟩ : ∃ f, parse "NxNN" = .ok f := ⟨_, rfl⟩
  have hfields : Field.ofChars ("NxNN".toList.map Char.toUpper) =
      [.constant 1, .register, .constant 2] := rfl
  have hfits : Field.Fits [.constant 1, .register, .constant 2]
      [.constant 0x1, .register 0x2, .constant 0x34] :=
    .constant (by decide) (.register (by decide) (.constant (by decide) .nil))
  obtain ⟨-, hformat⟩ := operands_bijection "NxNN"
  obtain ⟨-, hexists⟩ := hformat f hf
  rw [hfields] at hexists
  obtain ⟨w, hspell, hw⟩ := hexists _ hfits
  exact ⟨f, hf, w, hspell.symm, hw⟩

end Format

end Chip8
