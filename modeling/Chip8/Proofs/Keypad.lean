import Chip8.Keypad

/-!
# Keys that are down

* `Keypad.firstPressed?_eq_none_iff` and `Keypad.firstPressed?_eq_some_iff`: the first key that is down
  is the lowest one.
* `Keypad.set_of_up`: to let go of a key that is up changes nothing.
-/

namespace Chip8

namespace Keypad

/-- A key number above fifteen names no key. -/
theorem isPressed_of_le {key : UInt8} (h : 16 ≤ key.toNat) (k : Keypad) :
    k.isPressed key = false := by
  simp [isPressed, Array.getD, Nat.not_lt.mpr h]

theorem firstPressed?_eq (k : Keypad) :
    k.firstPressed? =
      ((List.range 16).find? fun key => k.isPressed key.toUInt8).map Nat.toUInt8 := by
  have hfirst (keys : List Nat) :
      (keys.filterMap fun key =>
        if k.isPressed key.toUInt8 then some key.toUInt8 else none).head? =
        (keys.find? fun key => k.isPressed key.toUInt8).map Nat.toUInt8 := by
    induction keys with
    | nil => rfl
    | cons key keys ih => cases hkey : k.isPressed key.toUInt8 <;> simp [hkey, ih]
  exact hfirst (List.range 16)

theorem firstPressed?_eq_none_iff {k : Keypad} :
    k.firstPressed? = none ↔ ∀ key, k.isPressed key = false := by
  rw [firstPressed?_eq, Option.map_eq_none_iff, List.find?_eq_none]
  constructor
  · intro hup key
    by_cases hkey : key.toNat < 16
    · have hkeyUp := hup key.toNat (List.mem_range.mpr hkey)
      rwa [show key.toNat.toUInt8 = key from UInt8.ofNat_toNat, Bool.not_eq_true] at hkeyUp
    · exact k.isPressed_of_le (Nat.not_lt.mp hkey)
  · intro hup key _
    simp [hup]

/-- To let go of a key that is up changes nothing. -/
theorem set_of_up {k : Keypad} {key : UInt8} (hlt : key.toNat < 16) (hup : k.isPressed key = false) :
    k.set key false = .ok k := by
  have hsame : k.keys.set key.toNat false = k.keys := by
    rw [← show k.keys[key.toNat] = false by simpa [isPressed, Array.getD, hlt] using hup]
    exact Vector.set_getElem_self hlt
  rw [set, dif_pos hlt, hsame]

/-- A new keypad has no key that is down. -/
theorem isPressed_new (key : UInt8) : ({} : Keypad).isPressed key = false :=
  firstPressed?_eq_none_iff.mp (by decide) key

/-- The first key that is down is the lowest one. -/
theorem firstPressed?_eq_some_iff {k : Keypad} {key : UInt8} :
    k.firstPressed? = some key ↔
      k.isPressed key = true ∧ ∀ other, other < key → k.isPressed other = false := by
  rw [firstPressed?_eq, Option.map_eq_some_iff]
  simp only [List.find?_range_eq_some, List.mem_range, Bool.not_eq_true']
  constructor
  · rintro ⟨place, ⟨hdown, hplace, hlower⟩, rfl⟩
    refine ⟨hdown, fun other hother => ?_⟩
    have hlt : other.toNat < place := by
      have hother := UInt8.lt_iff_toNat_lt.mp hother
      simp only [UInt8.toNat_ofNat'] at hother
      omega
    have hup := hlower other.toNat hlt
    rwa [show other.toNat.toUInt8 = other from UInt8.ofNat_toNat] at hup
  · rintro ⟨hdown, hlower⟩
    have hself : key.toNat.toUInt8 = key := UInt8.ofNat_toNat
    refine ⟨key.toNat, ⟨hself.symm ▸ hdown, ?_, fun place hplace => ?_⟩, hself⟩
    · refine Nat.lt_of_not_le fun hkey => ?_
      rw [k.isPressed_of_le hkey] at hdown
      cases hdown
    · refine hlower place.toUInt8 (UInt8.lt_iff_toNat_lt.mpr ?_)
      have hlt := key.toNat_lt
      simp only [UInt8.toNat_ofNat']
      omega

end Keypad

end Chip8
