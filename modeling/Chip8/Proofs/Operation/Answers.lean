import Chip8.Machine.Operation

/-!
# Answers of a list of operations

`Operation.run` keeps the machine after a list of operations.  `Operation.answers` keeps what the
host learns on the way, one answer or failure for each operation.  A failing operation does not end
the list, so both go on with the machine that it leaves.
-/

namespace Chip8.Operation

/-- What the host learns from the operations, one after the other. -/
def answers : List Operation → Machine → List (Except Failure Answer)
  | [], _ => []
  | operation :: operations, m =>
    (operation.apply m).result :: answers operations (operation.apply m).state

theorem run_cons (operation : Operation) (operations : List Operation) (m : Machine) :
    run (operation :: operations) m = run operations (operation.apply m).state := rfl

theorem run_append (operations more : List Operation) (m : Machine) :
    run (operations ++ more) m = run more (run operations m) := List.foldl_append

end Chip8.Operation
