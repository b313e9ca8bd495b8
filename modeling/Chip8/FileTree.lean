/-!
# Files by their paths

A tree of folders and the files in them, and what reading a path finds there.  A path is a list of
names divided by `/`, followed one after the other from where one stands, or from the root if the
path begins with `/`.  An empty name and `.` stay where they are, `..` goes up, and the root is above
itself.  The first name that cannot be followed decides, so nothing behind it matters.
-/

namespace Chip8

/-- Why a file cannot be read. -/
inductive ReadFailure where
  /-- There is nothing with this name. -/
  | missing
  /-- Reading it is not allowed. -/
  | denied
  /-- The path goes on behind a file. -/
  | notFolder
  /-- The path leads to a folder. -/
  | folder
  /-- The path or a name in it is longer than any can be. -/
  | nameTooLong
  /-- Something else went wrong. -/
  | other (reason : String)
deriving DecidableEq

/-- The wording of a failure to read a file. -/
def ReadFailure.message : ReadFailure → String
  | missing => "No such file or directory (os error 2)"
  | denied => "Permission denied (os error 13)"
  | notFolder => "Not a directory (os error 20)"
  | folder => "Is a directory (os error 21)"
  | nameTooLong => "File name too long (os error 36)"
  | other reason => reason

/-- A file or a folder with what is in it. -/
inductive FileTree where
  /-- A file. -/
  | file (contents : Array UInt8)
  /-- A folder and its entries by their names. -/
  | folder (entries : List (String × FileTree))

namespace FileTree

/-- The largest number of bytes in a name. -/
def maxName : Nat := 255

/-- The largest number of bytes in a path. -/
def maxPath : Nat := 4095

/-- A place in a tree: the file or folder there and the folders around it, the innermost first. -/
structure Place where
  /-- What is at the place. -/
  node : FileTree
  /-- The folders around it. -/
  around : List FileTree := []

namespace Place

/-- The root of the tree that the place is in. -/
def root (p : Place) : Place := { node := p.around.getLast?.getD p.node }

/-- The place that a name leads to. -/
def enter (p : Place) (name : String) : Except ReadFailure Place :=
  match p.node with
  | .file _ => .error .notFolder
  | .folder entries =>
    if name = "" ∨ name = "." then .ok p
    else if name = ".." then
      match p.around with
      | [] => .ok p
      | node :: around => .ok { node, around }
    else if name.utf8ByteSize > maxName then .error .nameTooLong
    else
      match entries.lookup name with
      | none => .error .missing
      | some node => .ok { node, around := p.node :: p.around }

/-- The place that names lead to, one after the other. -/
def follow (p : Place) : List String → Except ReadFailure Place
  | [] => .ok p
  | name :: rest =>
    match p.enter name with
    | .ok p => p.follow rest
    | .error failure => .error failure

/-- The contents of the file at the place. -/
def contents (p : Place) : Except ReadFailure (Array UInt8) :=
  match p.node with
  | .file contents => .ok contents
  | .folder _ => .error .folder

/-- The names in a path. -/
def names (path : String) : List String := (path.toList.splitOn '/').map String.ofList

/-- The contents of the file that a path leads to. -/
def read (p : Place) (path : String) : Except ReadFailure (Array UInt8) := do
  if path = "" then throw .missing
  else if path.utf8ByteSize > maxPath then throw .nameTooLong
  else
    let start := if path.startsWith "/" then p.root else p
    (← start.follow (names path)).contents

end Place

end FileTree

end Chip8
