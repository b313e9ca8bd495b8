import Chip8.Fault

/-!
# The call stack

Return addresses, the innermost call first.  The stack has no limit.
-/

namespace Chip8

/-- A stack of return addresses. -/
structure CallStack where
  /-- The addresses, the innermost call first. -/
  frames : List UInt16 := []
deriving DecidableEq

namespace CallStack

/-- The addresses from the outermost call to the innermost. -/
def toList (s : CallStack) : List UInt16 := s.frames.reverse

/-- The number of addresses. -/
def size (s : CallStack) : Nat := s.frames.length

/-- Puts an address on top. -/
def push (s : CallStack) (address : UInt16) : CallStack := { frames := address :: s.frames }

/-- The address on top and the stack below it. -/
def pop (s : CallStack) : Except Fault (UInt16 × CallStack) :=
  match s.frames with
  | [] => .error (.stackUnderflow "pop")
  | address :: frames => .ok (address, { frames })

/-- The address on top. -/
def top (s : CallStack) : Except Fault UInt16 :=
  match s.frames with
  | [] => .error (.stackUnderflow "top")
  | address :: _ => .ok address

theorem toList_push (s : CallStack) (address : UInt16) :
    (s.push address).toList = s.toList ++ [address] := by
  simp [toList, push]

theorem pop_push (s : CallStack) (address : UInt16) : (s.push address).pop = .ok (address, s) :=
  rfl

theorem toList_of_pop {s rest : CallStack} {address : UInt16} (h : s.pop = .ok (address, rest)) :
    s.toList = rest.toList ++ [address] := by
  obtain ⟨_ | ⟨_, frames⟩⟩ := s <;> cases h
  simp [toList]

end CallStack

end Chip8
