import Chip8.Machine.Snapshot
import Chip8.Proofs.Text.Hex
import Chip8.Proofs.Text.Joined

/-!
# The line of a snapshot

Addresses above `FFF` take more digits than the line asks for, and the call stack has no limit, so no
part of the line has a fixed place.  Each part can be told all the same, from what stands behind it.

* `Snapshot.numbersText_append_injective`: a list in brackets ends at its closing bracket.
* `Snapshot.fields_of_text_eq`: the parts of the line are read off from left to right.
* `Snapshot.text_shows_all_but_exitCode`: the line shows a snapshot but for the exit code, and of a
  machine all that the snapshot holds but for the exit code.
-/

namespace Chip8

namespace Snapshot

theorem toList_numbersText (width : Nat) (numbers : List Nat) :
    (numbersText width numbers).toList =
      '[' :: [' '].intercalate (numbers.map fun n => (Text.Hex.padded width n).toList) ++ [']'] := by
  rw [numbersText, String.toList_append, String.toList_append, String.toList_intercalate,
    List.map_map]
  rfl

/-- A list of numbers of any length can be told from what stands behind it. -/
theorem numbersText_append_injective {width : Nat} {numbers numbers' : List Nat}
    {rest rest' : String}
    (h : numbersText width numbers ++ rest = numbersText width numbers' ++ rest') :
    numbers = numbers' ∧ rest = rest' := by
  have hfree (numbers : List Nat) : ∀ l ∈ numbers.map fun n => (Text.Hex.padded width n).toList,
      l ≠ [] ∧ ' ' ∉ l ∧ ']' ∉ l := by
    intro l hl
    obtain ⟨n, -, rfl⟩ := List.mem_map.mp hl
    exact ⟨Text.Hex.toList_padded_ne_nil width n, Text.Hex.not_mem_padded (by decide) width n,
      Text.Hex.not_mem_padded (by decide) width n⟩
  have hlists := congrArg String.toList h
  simp only [String.toList_append, toList_numbersText, List.cons_append, List.append_assoc,
    List.nil_append, List.cons.injEq, true_and] at hlists
  obtain ⟨hnumbers, hrest⟩ := Text.intercalate_append_injective List.not_mem_nil (by decide)
    (hfree numbers) (hfree numbers') hlists
  refine ⟨(List.map_inj_right fun m n hmn => ?_).mp hnumbers, String.toList_injective hrest⟩
  exact Text.Hex.padded_injective width (String.toList_injective hmn)

/-- The parts of the line, each told from the label that stands behind it. -/
theorem fields_of_text_eq {a b : Snapshot} (h : a.text = b.text) :
    a.v = b.v ∧ a.pc = b.pc ∧ a.i = b.i ∧ a.delay = b.delay ∧ a.sound = b.sound ∧
      a.stack = b.stack ∧ a.blocked = b.blocked := by
  have hblank : ' ' ∉ Text.Hex.digits := by decide
  unfold text at h
  simp only [String.append_assoc] at h
  rw [String.append_right_inj] at h
  obtain ⟨hv, h⟩ := numbersText_append_injective h
  rw [String.append_right_inj] at h
  obtain ⟨hpc, h⟩ := Text.Hex.padded_append_injective hblank rfl h
  obtain ⟨hi, h⟩ := Text.Hex.padded_append_injective hblank rfl h
  obtain ⟨hdelay, h⟩ := Text.Hex.padded_append_injective hblank rfl h
  obtain ⟨hsound, h⟩ := Text.Hex.padded_append_injective hblank rfl h
  obtain ⟨hstack, h⟩ := numbersText_append_injective h
  -- What is left is the note of a machine that waits, which is empty for any other.
  have hblocked : a.blocked = b.blocked := by
    cases ha : a.blocked <;> cases hb : b.blocked <;> simp [ha, hb] at h ⊢
  rw [List.map_inj_right fun _ _ => UInt8.toNat_inj.mp, Vector.toList_inj] at hv
  rw [List.map_inj_right fun _ _ => UInt16.toNat_inj.mp] at hstack
  exact ⟨hv, UInt16.toNat_inj.mp hpc, UInt16.toNat_inj.mp hi, UInt8.toNat_inj.mp hdelay,
    UInt8.toNat_inj.mp hsound, hstack, hblocked⟩

/-- Two snapshots have the same line exactly when they agree in everything but the exit code.  Two
machines therefore have the same line exactly when they agree in their registers, counters, timers and
return addresses and in whether they wait for a key. -/
theorem text_shows_all_but_exitCode :
    (∀ a b : Snapshot, a.text = b.text ↔
      a.v = b.v ∧ a.pc = b.pc ∧ a.i = b.i ∧ a.delay = b.delay ∧ a.sound = b.sound ∧
        a.stack = b.stack ∧ a.blocked = b.blocked) ∧
      ∀ m m' : Machine, m.snapshot.text = m'.snapshot.text ↔
        m.v = m'.v ∧ m.pc = m'.pc ∧ m.i = m'.i ∧ m.delay = m'.delay ∧ m.sound = m'.sound ∧
          m.stack = m'.stack ∧ m.blocked = m'.blocked := by
  have hsnapshots (a b : Snapshot) : a.text = b.text ↔
      a.v = b.v ∧ a.pc = b.pc ∧ a.i = b.i ∧ a.delay = b.delay ∧ a.sound = b.sound ∧
        a.stack = b.stack ∧ a.blocked = b.blocked := by
    refine ⟨fields_of_text_eq, ?_⟩
    rintro ⟨hv, hpc, hi, hdelay, hsound, hstack, hblocked⟩
    unfold text
    rw [hv, hpc, hi, hdelay, hsound, hstack, hblocked]
  refine ⟨hsnapshots, fun m m' => ?_⟩
  have htimer {t t' : Timer} : t = t' ↔ t.count = t'.count :=
    ⟨congrArg Timer.count, congrArg Timer.mk⟩
  have hstack : m.stack = m'.stack ↔ m.stack.toList = m'.stack.toList :=
    ⟨congrArg CallStack.toList, fun h => congrArg CallStack.mk (List.reverse_inj.mp h)⟩
  rw [hsnapshots, htimer, htimer, hstack]
  rfl

/-- The line of a machine that waits for a key, whatever its exit code. -/
example (exitCode : Option UInt32) :
    (Snapshot.mk (Vector.replicate 16 0) 0xFFFF 0x204 0 7 [0x202, 0x1234] true exitCode).text =
      "V: [00 00 00 00 00 00 00 00 00 00 00 00 00 00 00 00] PC: 204 I: FFFF DT: 00 ST: 07" ++
        " Stack: [202 1234] (waiting for key)" := by
  unfold text
  cbv

end Snapshot

end Chip8
