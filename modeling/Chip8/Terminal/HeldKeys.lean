import Chip8.Key

/-!
# Keys that are held down

Most terminals report that a key is pressed and never that it is released.  So a key that stands for
one of the keypad is held down for a number of frames after the last report of it, and then let go.
-/

namespace Chip8

/-- A report of a terminal on a key. -/
inductive KeyReport where
  /-- The key was pressed, or is still down. -/
  | press (key : Key)
  /-- The key was released. -/
  | release (key : Key)
deriving DecidableEq

namespace KeyReport

/-- The key that the report is about. -/
def key : KeyReport → Key
  | press key | release key => key

/-- Whether the key is down by the report. -/
def isPress : KeyReport → Bool
  | press _ => true
  | release _ => false

end KeyReport

/-- A key that is held down. -/
structure HeldKey where
  /-- The key. -/
  key : Key
  /-- The number of frames that it stays down, this one included. -/
  frames : Nat
deriving DecidableEq

/-- The keys that are held down, in the order in which they are looked at. -/
abbrev HeldKeys := List HeldKey

namespace HeldKeys

/-- The keys without one of them. -/
def without (held : HeldKeys) (key : Key) : HeldKeys := held.filter fun h => h.key ≠ key

/-- Takes note of a report.  A key that is pressed goes to the end and stays down for `frames`
frames. -/
def report (held : HeldKeys) (frames : Nat) : KeyReport → HeldKeys
  | .press key =>
    if key.keypad?.isSome then held.without key ++ [{ key, frames }] else held
  | .release key => held.without key

/-- The list with its last entry in front. -/
def lastToFront {α : Type} (entries : List α) : List α :=
  match entries.getLast? with
  | some last => last :: entries.dropLast
  | none => []

theorem length_lastToFront {α : Type} (entries : List α) :
    (lastToFront entries).length = entries.length := by
  cases entries with
  | nil => rfl
  | cons a rest => simp [lastToFront, List.getLast?_eq_some_getLast]

/-- The end of a frame: the keys still held and those to be let go, in the order in which that
happens.  The last key takes the place of one that is let go. -/
def tick : HeldKeys → HeldKeys × List Key
  | [] => ([], [])
  | h :: rest =>
    if h.frames ≤ 1 then
      let (held, released) := tick (lastToFront rest)
      (held, h.key :: released)
    else
      let (held, released) := tick rest
      ({ h with frames := h.frames - 1 } :: held, released)
termination_by held => held.length
decreasing_by
  · simp [length_lastToFront]
  · simp

end HeldKeys

end Chip8
