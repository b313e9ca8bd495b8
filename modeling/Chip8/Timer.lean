import Chip8.Fault

/-!
# Timers

A timer holds a byte and counts down to zero, where it stays: a tick takes one away from the count if
there is one left (`toNat_count_tick`).
-/

namespace Chip8

/-- A timer that counts down. -/
structure Timer where
  /-- The ticks left. -/
  count : UInt8 := 0
deriving DecidableEq

namespace Timer

/-- Sets the timer to a value, which must fit into a byte. -/
def set? (value : UInt32) : Except Fault Timer :=
  if value < 256 then .ok { count := value.toUInt8 } else .error (.timerOutOfRange value)

/-- One tick. -/
def tick (t : Timer) : Timer := { count := if t.count = 0 then 0 else t.count - 1 }

/-- Whether the timer is still running. -/
def isActive (t : Timer) : Bool := t.count ≠ 0

theorem toNat_count_tick (t : Timer) : t.tick.count.toNat = t.count.toNat - 1 := by
  unfold tick
  split
  · rename_i h
    simp [h]
  · rename_i h
    have hpos : t.count.toNat ≠ 0 := fun h' => h (UInt8.toNat_inj.mp h')
    have hlt := t.count.toNat_lt
    simp only [UInt8.toNat_sub, UInt8.toNat_ofNat]
    omega

end Timer

end Chip8
