import Chip8.Opcode
import Mathlib.Algebra.Group.Nat.Defs

/-!
# The nibbles of an opcode as numbers

`Opcode.nibbles` cuts an opcode into four bytes.  Proofs about formats and about the arithmetic of an
instruction word read the nibbles as numbers instead:

* `map_toNat_nibbles` gives them by division and remainder;
* `nibble_lt` bounds them by sixteen;
* `eq_of_nibbles_eq` and `exists_nibbles_eq` say that they determine the opcode, and that four digits do;
* `toNat_shiftLeft_or` is the step that appends a nibble to a constant.
-/

namespace Chip8.Opcode

theorem toNat_lt (w : Opcode) : w.toNat < 65536 := UInt16.toNat_lt w

/-- The nibbles by division and remainder. -/
theorem map_toNat_nibbles (w : Opcode) :
    w.nibbles.map UInt8.toNat =
      [w.toNat / 4096, w.toNat / 256 % 16, w.toNat / 16 % 16, w.toNat % 16] := by
  have hlt := toNat_lt w
  have hmask : ∀ n : Nat, n &&& 15 = n % 16 := fun n => Nat.and_two_pow_sub_one_eq_mod n 4
  simp only [nibbles, List.map_cons, List.map_nil, UInt16.toNat_toUInt8, UInt16.toNat_shiftRight,
    UInt16.toNat_and, UInt16.toNat_ofNat, Nat.shiftRight_eq_div_pow, Nat.reduceMod, Nat.reducePow,
    hmask, List.cons.injEq, and_true]
  omega

@[simp]
theorem length_nibbles (w : Opcode) : w.nibbles.length = 4 := rfl

theorem nibble_lt {w : Opcode} {nibble : UInt8} (h : nibble ∈ w.nibbles) : nibble.toNat < 16 := by
  have hlt := toNat_lt w
  have hmem : nibble.toNat ∈ w.nibbles.map UInt8.toNat := List.mem_map_of_mem h
  simp only [map_toNat_nibbles, List.mem_cons, List.not_mem_nil, or_false] at hmem
  omega

/-- An opcode is determined by its nibbles. -/
theorem eq_of_nibbles_eq {w w' : Opcode}
    (h : w.nibbles.map UInt8.toNat = w'.nibbles.map UInt8.toNat) : w = w' := by
  simp only [map_toNat_nibbles, List.cons.injEq, and_true] at h
  apply UInt16.toNat_inj.mp
  omega

/-- Any four digits are the nibbles of an opcode. -/
theorem exists_nibbles_eq {digits : List Nat} (hlength : digits.length = 4)
    (hdigits : ∀ digit ∈ digits, digit < 16) :
    ∃ w : Opcode, w.nibbles.map UInt8.toNat = digits := by
  obtain ⟨a, b, c, d, rfl⟩ : ∃ a b c d, digits = [a, b, c, d] := by
    match digits, hlength with
    | [a, b, c, d], _ => exact ⟨a, b, c, d, rfl⟩
  simp only [List.mem_cons, List.not_mem_nil, or_false, forall_eq_or_imp, forall_eq] at hdigits
  obtain ⟨ha, hb, hc, hd⟩ := hdigits
  have hlt : 4096 * a + 256 * b + 16 * c + d < 65536 := by omega
  refine ⟨(4096 * a + 256 * b + 16 * c + d).toUInt16, ?_⟩
  rw [map_toNat_nibbles, Nat.toUInt16, UInt16.toNat_ofNat', Nat.mod_eq_of_lt hlt]
  simp only [List.cons.injEq, and_true]
  omega

/-- Shifting a word to the left and filling in the bits that have become free, where the word has
room for the shift. -/
private theorem toNat_shiftLeft_or_aux (k value low : UInt16) (hk : k.toNat < 16)
    (hvalue : value.toNat * 2 ^ k.toNat < 65536) (hlow : low.toNat < 2 ^ k.toNat) :
    (value <<< k ||| low).toNat = 2 ^ k.toNat * value.toNat + low.toNat := by
  have hshift : (value <<< k).toNat = value.toNat <<< k.toNat := by
    rw [UInt16.toNat_shiftLeft, Nat.mod_eq_of_lt hk, Nat.mod_eq_of_lt]
    rwa [Nat.shiftLeft_eq]
  rw [UInt16.toNat_or, hshift, ← Nat.shiftLeft_add_eq_or_of_lt hlow, Nat.shiftLeft_eq,
    Nat.mul_comm]

/-- Appending a nibble to a constant of at most twelve bits. -/
theorem toNat_shiftLeft_or {value : UInt16} {nibble : UInt8} (hvalue : value.toNat < 4096)
    (hnibble : nibble.toNat < 16) :
    (value <<< 4 ||| nibble.toUInt16).toNat = 16 * value.toNat + nibble.toNat := by
  have hroom : value.toNat * 2 ^ (4 : UInt16).toNat < 65536 := by
    show value.toNat * 16 < 65536
    omega
  have h := toNat_shiftLeft_or_aux 4 value nibble.toUInt16 (by decide) hroom (by simpa using hnibble)
  simpa using h

/-- The opcode of two bytes as a number. -/
theorem toNat_ofBytes (high low : UInt8) :
    (ofBytes high low).toNat = 256 * high.toNat + low.toNat := by
  have hhigh := high.toNat_lt
  have hlow := low.toNat_lt
  have hroom : high.toUInt16.toNat * 2 ^ (8 : UInt16).toNat < 65536 := by
    show high.toUInt16.toNat * 256 < 65536
    rw [UInt8.toNat_toUInt16]
    omega
  have h := toNat_shiftLeft_or_aux 8 high.toUInt16 low.toUInt16 (by decide) hroom
    (by simpa using hlow)
  simpa [ofBytes] using h

end Chip8.Opcode
