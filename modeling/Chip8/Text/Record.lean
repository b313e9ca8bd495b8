/-!
# Records as text

A value with named parts is shown as its name and the parts in braces, `Name { part: value }`, and a
value without parts as its name alone.
-/

namespace Chip8.Text

/-- The text of the record `name` with the parts `parts`, each a label and the text of its value. -/
def record (name : String) (parts : List (String × String)) : String :=
  match parts with
  | [] => name
  | parts =>
    name ++ " \x7b " ++ ", ".intercalate (parts.map fun (label, value) => label ++ ": " ++ value) ++
      " \x7d"

/-- The name of a truth value. -/
def flag (b : Bool) : String := if b then "true" else "false"

end Chip8.Text
