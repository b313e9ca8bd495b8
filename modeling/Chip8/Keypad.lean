import Chip8.Fault

/-!
# The keypad

Sixteen keys, each up or down.  A key number above fifteen names no key: it cannot be pressed, and
asking for it finds it up.
-/

namespace Chip8

/-- The state of the sixteen keys. -/
structure Keypad where
  /-- Whether each key is down. -/
  keys : Vector Bool 16 := Vector.replicate 16 false
deriving DecidableEq

namespace Keypad

/-- Moves a key down or up. -/
def set (k : Keypad) (key : UInt8) (down : Bool) : Except Fault Keypad :=
  if h : key.toNat < 16 then .ok { keys := k.keys.set key.toNat down }
  else .error (.invalidKey key)

/-- Whether a key is down. -/
def isPressed (k : Keypad) (key : UInt8) : Bool := k.keys.toArray.getD key.toNat false

/-- The keys that are down in ascending order. -/
def pressed (k : Keypad) : List UInt8 :=
  (List.range 16).filterMap fun key => if k.isPressed key.toUInt8 then some key.toUInt8 else none

/-- The lowest key that is down. -/
def firstPressed? (k : Keypad) : Option UInt8 := k.pressed.head?

/-- A key that was moved is where it was moved to, and the others are where they were. -/
theorem isPressed_of_set {k k' : Keypad} {key : UInt8} {down : Bool}
    (h : k.set key down = .ok k') (other : UInt8) :
    k'.isPressed other = if key = other then down else k.isPressed other := by
  unfold set at h
  split at h
  · rename_i hlt
    obtain rfl : { keys := k.keys.set key.toNat down : Keypad } = k' := by simpa using h
    by_cases heq : key = other
    · subst heq
      simp [isPressed, hlt]
    · have hne : key.toNat ≠ other.toNat := fun h => heq (UInt8.toNat_inj.mp h)
      simp [isPressed, heq, hne]
  · exact absurd h (by simp)

end Keypad

end Chip8
