import Chip8.Terminal.HeldKeys

/-!
# Key events of a terminal

What a terminal tells of a key: a code, the modifiers that are down with it and whether it was
pressed, repeated or released.  Only the escape key and the keys that type a character of
`Key.ofChar` are reported on.  A terminal in raw mode does not act on control and `c`, so these stand
for the escape key too.
-/

namespace Chip8

/-- The code of a key. -/
inductive KeyCode where
  /-- The escape key. -/
  | escape
  /-- A key that types a character. -/
  | char (c : Char)
  /-- Any other key. -/
  | other
deriving DecidableEq

/-- What happened to a key. -/
inductive KeyAction where
  /-- It was pressed. -/
  | press
  /-- It is held down and reported again. -/
  | again
  /-- It was released. -/
  | release
deriving DecidableEq

/-- An event of a key. -/
structure KeyEvent where
  /-- The code of the key. -/
  code : KeyCode
  /-- Whether the control key is down with it. -/
  control : Bool
  /-- What happened. -/
  action : KeyAction
deriving DecidableEq

namespace KeyEvent

/-- The key of an event, if it is one that is reported on. -/
def key? (event : KeyEvent) : Option Key :=
  match event.code with
  | .escape => some .escape
  | .char c =>
    if c = 'c' ∧ event.control then some .escape
    else
      match Key.ofChar c with
      | .other => none
      | key => some key
  | .other => none

/-- The report on an event, if there is one. -/
def report? (event : KeyEvent) : Option KeyReport :=
  event.key?.map fun key =>
    match event.action with
    | .press | .again => .press key
    | .release => .release key

end KeyEvent

end Chip8
