import Chip8.Proofs.Keypad
import Chip8.Proofs.Machine.Safety
import Chip8.Terminal.HeldKeys

/-!
# The keys that are held down

A key is put among the held keys by a report that it is pressed, and leaves them by a report that it is
released or when its frames are over.  The order of the list does not matter for which keys these are.

* `HeldKeys.mem_report` and `HeldKeys.mem_tick`: the keys that are held after a report and after a
  frame, and `HeldKeys.mem_released` those that a frame lets go.
* `HeldKeys.tick?_eq`: the count of a held key is never below one when a frame counts it down.
* `HeldKeys.Shown`: the held keys stand for different keys of the keypad, and these are the ones that
  are down.
-/

namespace Chip8

namespace Key

/-- Different keys stand for different keys of the keypad. -/
theorem keypad?_injective {key key' : Key} {slot : UInt8} (hkey : key.keypad? = some slot)
    (hkey' : key'.keypad? = some slot) : key = key' := by
  have hall : ∀ key ∈ all, ∀ key' ∈ all, key.keypad?.isSome → key.keypad? = key'.keypad? →
      key = key' := by decide
  have hmem (key : Key) : key ∈ all := by cases key <;> decide
  exact hall key (hmem key) key' (hmem key') (by rw [hkey]; rfl) (hkey.trans hkey'.symm)

/-- Every key of the keypad has a key that stands for it. -/
theorem exists_keypad?_eq {slot : UInt8} (h : slot.toNat < 16) :
    ∃ key : Key, key.keypad? = some slot := by
  have hall : ∀ place < 16, ∃ key ∈ all, key.keypad? = some place.toUInt8 := by decide
  obtain ⟨key, -, hkey⟩ := hall slot.toNat h
  exact ⟨key, hkey.trans (congrArg some UInt8.ofNat_toNat)⟩

/-- What stands for a key of the keypad can be set there. -/
theorem lt_of_keypad?_eq {key : Key} {slot : UInt8} (h : key.keypad? = some slot) :
    slot.toNat < 16 := by
  cases key <;> cases h <;> decide

end Key

namespace HeldKeys

variable {held : HeldKeys}

/-! ## Reports -/

theorem mem_without {key : Key} {h : HeldKey} : h ∈ held.without key ↔ h ∈ held ∧ h.key ≠ key := by
  simp [without]

/-- A key that is reported pressed is held from then on for the given time, one that is reported
released is not, and the others are held as before. -/
theorem mem_report (hmapped : ∀ h ∈ held, h.key.keypad?.isSome) {frames : Nat} {r : KeyReport}
    {h : HeldKey} :
    h ∈ held.report frames r ↔
      if h.key = r.key then r.isPress ∧ h.key.keypad?.isSome ∧ h.frames = frames else h ∈ held := by
  cases r with
  | press key =>
    simp only [report, KeyReport.key, KeyReport.isPress]
    by_cases hkey : h.key = key
    · subst hkey
      rw [if_pos rfl]
      by_cases hsome : h.key.keypad?.isSome
      · rw [if_pos hsome, List.mem_append, mem_without, List.mem_singleton]
        have hself : h = ⟨h.key, frames⟩ ↔ h.frames = frames := by
          obtain ⟨key, count⟩ := h
          simp
        simp [hsome, hself]
      · rw [if_neg hsome]
        exact iff_of_false (fun hmem => hsome (hmapped h hmem)) (by simp [hsome])
    · rw [if_neg hkey]
      have hne : ¬ h = ⟨key, frames⟩ := fun heq => hkey (congrArg HeldKey.key heq)
      split
      · rw [List.mem_append, mem_without, List.mem_singleton]
        simp [hkey, hne]
      · rfl
  | release key =>
    simp only [report, KeyReport.key, KeyReport.isPress, mem_without]
    by_cases hkey : h.key = key <;> simp [hkey]

theorem nodup_without (hnodup : (held.map (·.key)).Nodup) (key : Key) :
    ((held.without key).map (·.key)).Nodup :=
  hnodup.sublist (List.filter_sublist.map _)

theorem nodup_report (hnodup : (held.map (·.key)).Nodup) (frames : Nat) (r : KeyReport) :
    ((held.report frames r).map (·.key)).Nodup := by
  cases r with
  | press key =>
    simp only [report]
    split
    · rw [List.map_append, List.nodup_append]
      refine ⟨nodup_without hnodup key, by simp, fun first hfirst last hlast => ?_⟩
      obtain ⟨h, hmem, rfl⟩ := List.mem_map.mp hfirst
      obtain rfl : last = key := by simpa using hlast
      exact (mem_without.mp hmem).2
    · exact hnodup
  | release key => exact nodup_without hnodup key

/-! ## The end of a frame -/

theorem perm_lastToFront {α : Type} (entries : List α) : (lastToFront entries).Perm entries := by
  obtain rfl | ⟨rest, last, rfl⟩ := List.eq_nil_or_concat entries
  · exact .refl _
  · simpa [lastToFront] using (List.perm_append_singleton last rest).symm

theorem tick_of_le {h : HeldKey} {rest : HeldKeys} (hover : h.frames ≤ 1) :
    tick (h :: rest) = ((tick (lastToFront rest)).1, h.key :: (tick (lastToFront rest)).2) := by
  rw [tick, if_pos hover]

theorem tick_of_not_le {h : HeldKey} {rest : HeldKeys} (hover : ¬ h.frames ≤ 1) :
    tick (h :: rest) = ({ h with frames := h.frames - 1 } :: (tick rest).1, (tick rest).2) := by
  rw [tick, if_neg hover]

/-- A key that has more than one frame left keeps one less, and the others are let go. -/
theorem perm_tick (held : HeldKeys) :
    held.tick.1.Perm ((held.filter fun h => 1 < h.frames).map fun h =>
      { h with frames := h.frames - 1 }) ∧
    held.tick.2.Perm ((held.filter fun h => h.frames ≤ 1).map (·.key)) := by
  induction held using tick.induct with
  | case1 => simp [tick]
  | case2 h rest hover _ _ _ ih =>
    have hrest := perm_lastToFront rest
    obtain ⟨hheld, hreleased⟩ := ih
    rw [tick_of_le hover]
    constructor
    · rw [List.filter_cons_of_neg (by simpa using hover)]
      exact hheld.trans ((hrest.filter _).map _)
    · rw [List.filter_cons_of_pos (by simpa using hover)]
      exact (hreleased.trans ((hrest.filter _).map _)).cons h.key
  | case3 h rest hover _ _ _ ih =>
    obtain ⟨hheld, hreleased⟩ := ih
    rw [tick_of_not_le hover]
    constructor
    · rw [List.filter_cons_of_pos (by simpa using hover)]
      exact hheld.cons _
    · rwa [List.filter_cons_of_neg (by simpa using hover)]

/-- The keys that are held after a frame. -/
theorem mem_tick {key : Key} {frames : Nat} :
    ⟨key, frames⟩ ∈ held.tick.1 ↔ ⟨key, frames + 1⟩ ∈ held ∧ 0 < frames := by
  rw [(perm_tick held).1.mem_iff, List.mem_map]
  constructor
  · rintro ⟨⟨key', frames'⟩, hmem, heq⟩
    obtain ⟨hheld, hframes⟩ := List.mem_filter.mp hmem
    cases heq
    rw [decide_eq_true_eq] at hframes
    dsimp only at hframes
    rw [Nat.sub_add_cancel (Nat.le_of_lt hframes)]
    exact ⟨hheld, Nat.sub_pos_of_lt hframes⟩
  · rintro ⟨hheld, hframes⟩
    exact ⟨⟨key, frames + 1⟩, List.mem_filter.mpr ⟨hheld, by simpa using hframes⟩, rfl⟩

/-- The keys that a frame lets go. -/
theorem mem_released {key : Key} : key ∈ held.tick.2 ↔ ∃ h ∈ held, h.key = key ∧ h.frames ≤ 1 := by
  rw [(perm_tick held).2.mem_iff, List.mem_map]
  constructor
  · rintro ⟨h, hmem, rfl⟩
    obtain ⟨hheld, hframes⟩ := List.mem_filter.mp hmem
    exact ⟨h, hheld, rfl, by simpa using hframes⟩
  · rintro ⟨h, hheld, rfl, hframes⟩
    exact ⟨h, List.mem_filter.mpr ⟨hheld, by simpa using hframes⟩, rfl⟩

theorem nodup_tick (hnodup : (held.map (·.key)).Nodup) : (held.tick.1.map (·.key)).Nodup := by
  rw [((perm_tick held).1.map (·.key)).nodup_iff, List.map_map]
  exact hnodup.sublist (List.filter_sublist.map _)

/-- The end of a frame with a check that no count falls below zero. -/
def tick? : HeldKeys → Option (HeldKeys × List Key)
  | [] => some ([], [])
  | h :: rest => do
    let frames ← Checked.sub? h.frames 1
    if frames = 0 then
      let (held, released) ← tick? (lastToFront rest)
      some (held, h.key :: released)
    else
      let (held, released) ← tick? rest
      some ({ h with frames } :: held, released)
termination_by held => held.length
decreasing_by
  · simp [length_lastToFront]
  · simp

/-- The check does not fail when every held key has a frame left. -/
theorem tick?_eq (hleft : ∀ h ∈ held, 1 ≤ h.frames) : held.tick? = some held.tick := by
  induction held using tick.induct with
  | case1 => simp [tick?, tick]
  | case2 h rest hover _ _ _ ih =>
    have hrest : ∀ other ∈ lastToFront rest, 1 ≤ other.frames := fun other hmem =>
      hleft other (List.mem_cons_of_mem h ((perm_lastToFront rest).mem_iff.mp hmem))
    have hone : 1 ≤ h.frames := hleft h List.mem_cons_self
    have hzero : h.frames - 1 = 0 := by omega
    rw [tick?, Checked.sub?_eq hone, Option.bind_eq_bind, Option.bind_some, if_pos hzero,
      ih hrest, tick_of_le hover]
    rfl
  | case3 h rest hover _ _ _ ih =>
    have hrest : ∀ other ∈ rest, 1 ≤ other.frames := fun other hmem =>
      hleft other (List.mem_cons_of_mem h hmem)
    have hone : 1 ≤ h.frames := hleft h List.mem_cons_self
    have hzero : ¬ h.frames - 1 = 0 := by omega
    rw [tick?, Checked.sub?_eq hone, Option.bind_eq_bind, Option.bind_some, if_neg hzero,
      ih hrest, tick_of_not_le hover]
    rfl

/-! ## The keypad -/

/-- No key is held twice, every held key stands for one of the keypad and has a frame left, and the
keys of the keypad that are down are those that the held keys stand for. -/
structure Shown (held : HeldKeys) (keypad : Keypad) : Prop where
  nodup : (held.map (·.key)).Nodup
  mapped : ∀ h ∈ held, h.key.keypad?.isSome
  left : ∀ h ∈ held, 1 ≤ h.frames
  pressed : ∀ slot, keypad.isPressed slot = true ↔ ∃ h ∈ held, h.key.keypad? = some slot

end HeldKeys

end Chip8
