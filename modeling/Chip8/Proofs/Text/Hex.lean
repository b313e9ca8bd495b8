import Chip8.Proofs.Text.Joined
import Chip8.Text.Hex

/-!
# Digits of hexadecimal numbers

A padded number is written digit by digit, and can be read back from its digits.

* `digit`: the character of a digit, which determines it (`digit_injective`).
* `toList_padded_one` and `toList_padded_succ`: the last digit of a padded number, and the number that
  stands before it.
* `value`: the number that digits form, which reads a padded number back (`value_padded`).  Different
  numbers are therefore written differently at the same width (`padded_injective`), also in front of
  anything that begins with no digit (`padded_append_injective`).
-/

namespace Chip8.Text.Hex

/-- The character of a digit in upper case. -/
def digit (value : Nat) : Char := (Nat.digitChar value).toUpper

theorem digit_injective : ∀ a < 16, ∀ b < 16, digit a = digit b → a = b := by decide

theorem upper_of_lt {n : Nat} (h : n < 16) : upper n = [digit n] := by
  rw [upper, Nat.toDigits_of_lt_base h]
  rfl

theorem upper_of_le {n : Nat} (h : 16 ≤ n) : upper n = upper (n / 16) ++ [digit (n % 16)] := by
  rw [upper, Nat.toDigits_of_base_le (by decide) h, List.map_append]
  rfl

theorem toList_padded (width n : Nat) :
    (padded width n).toList = List.replicate (width - (upper n).length) '0' ++ upper n := by
  simp [padded, List.leftpad]

theorem toList_padded_one {n : Nat} (h : n < 16) : (padded 1 n).toList = [digit n] := by
  rw [toList_padded, upper_of_lt h]
  rfl

/-- The last digit stands behind the number without it, padded to one digit less. -/
theorem toList_padded_succ {width : Nat} (hwidth : 0 < width) (n : Nat) :
    (padded (width + 1) n).toList = (padded width (n / 16)).toList ++ [digit (n % 16)] := by
  rw [toList_padded, toList_padded]
  rcases Nat.lt_or_ge n 16 with hlt | hge
  · obtain ⟨width, rfl⟩ := Nat.exists_eq_succ_of_ne_zero (Nat.ne_of_gt hwidth)
    rw [Nat.div_eq_of_lt hlt, Nat.mod_eq_of_lt hlt, upper_of_lt hlt, upper_of_lt (by decide : 0 < 16)]
    simp [List.replicate_succ']
    rfl
  · rw [upper_of_le hge, List.length_append, List.length_singleton, Nat.add_sub_add_right,
      List.append_assoc]

/-! ## Reading a number back -/

/-- The digits in the order of their values. -/
def digits : List Char :=
  ['0', '1', '2', '3', '4', '5', '6', '7', '8', '9', 'A', 'B', 'C', 'D', 'E', 'F']

/-- The number that characters form when each is read as a digit. -/
def value (chars : List Char) : Nat := chars.foldl (fun n c => 16 * n + digits.idxOf c) 0

theorem idxOf_digit : ∀ n < 16, digits.idxOf (digit n) = n := by decide

theorem digit_mem_digits : ∀ n < 16, digit n ∈ digits := by decide

theorem value_concat (chars : List Char) (c : Char) :
    value (chars ++ [c]) = 16 * value chars + digits.idxOf c := by
  rw [value, List.foldl_append]
  rfl

theorem value_upper (n : Nat) : value (upper n) = n := by
  induction n using Nat.strongRecOn with
  | ind n ih =>
    rcases Nat.lt_or_ge n 16 with hlt | hge
    · rw [upper_of_lt hlt]
      exact (Nat.zero_add _).trans (idxOf_digit n hlt)
    · rw [upper_of_le hge, value_concat, ih (n / 16) (by omega), idxOf_digit _ (by omega)]
      omega

theorem mem_digits_of_mem_upper {n : Nat} {c : Char} (h : c ∈ upper n) : c ∈ digits := by
  induction n using Nat.strongRecOn with
  | ind n ih =>
    rcases Nat.lt_or_ge n 16 with hlt | hge
    · rw [upper_of_lt hlt, List.mem_singleton] at h
      exact h ▸ digit_mem_digits n hlt
    · rw [upper_of_le hge, List.mem_append, List.mem_singleton] at h
      rcases h with h | rfl
      · exact ih (n / 16) (by omega) h
      · exact digit_mem_digits _ (by omega)

/-- Zeros in front do not count. -/
theorem value_replicate_append (zeros : Nat) (chars : List Char) :
    value (List.replicate zeros '0' ++ chars) = value chars := by
  induction zeros with
  | zero => rfl
  | succ zeros ih => exact ih

theorem value_padded (width n : Nat) : value (padded width n).toList = n := by
  rw [toList_padded, value_replicate_append, value_upper]

theorem padded_injective (width : Nat) : Function.Injective (padded width) := fun m n h => by
  rw [← value_padded width m, h, value_padded]

theorem mem_digits_of_mem_padded {width n : Nat} {c : Char} (h : c ∈ (padded width n).toList) :
    c ∈ digits := by
  rw [toList_padded, List.mem_append] at h
  rcases h with h | h
  · rw [List.eq_of_mem_replicate h]
    decide
  · exact mem_digits_of_mem_upper h

theorem not_mem_padded {c : Char} (hc : c ∉ digits) (width n : Nat) :
    c ∉ (padded width n).toList :=
  fun h => hc (mem_digits_of_mem_padded h)

theorem toList_padded_ne_nil (width n : Nat) : (padded width n).toList ≠ [] := by
  rw [toList_padded]
  exact List.append_ne_nil_of_right_ne_nil _ (by simp [upper])

/-- A number of any length ends where a label begins. -/
theorem padded_append_injective {width m n : Nat} {c : Char} {label rest rest' : String}
    (hc : c ∉ digits) (hlabel : label.toList.head? = some c)
    (h : padded width m ++ (label ++ rest) = padded width n ++ (label ++ rest')) :
    m = n ∧ rest = rest' := by
  have hhead {rest : String} : ∀ a ∈ (label ++ rest).toList.head?, a = c := by
    rw [String.toList_append, List.head?_append, hlabel]
    exact fun a ha => (Option.some.inj ha).symm
  have hlists : (padded width m).toList ++ (label ++ rest).toList =
      (padded width n).toList ++ (label ++ rest').toList := by
    rw [← String.toList_append, h, String.toList_append]
  obtain ⟨hnumber, hrest⟩ := eq_of_append_eq (not_mem_padded hc width m) (not_mem_padded hc width n)
    hhead hhead hlists
  refine ⟨padded_injective width (String.toList_injective hnumber), ?_⟩
  exact (String.append_right_inj label).mp (String.toList_injective hrest)

end Chip8.Text.Hex
