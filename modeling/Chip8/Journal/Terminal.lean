import Chip8.Journal.Emulator
import Chip8.Terminal

/-!
# Events of a run in a terminal
-/

namespace Chip8.Terminal

open Journal (Event)

/-- The events of one turn. -/
def turnEvents (t : Terminal) : List Event :=
  match t.nextPoll with
  | .error _ => []
  | .ok reports =>
    let t := t.readReports reports
    reports.flatMap (fun r => Emulator.keyEvents r.key r.isPress) ++
      t.emulator.advanceEvents ++
      match Emulator.update (t.emulator, t.picture) with
      | ⟨_, .ok _⟩ => t.held.tick.2.flatMap fun key => Emulator.keyEvents key false
      | ⟨_, .error _⟩ => []

/-- The events of a run. -/
def runEvents (limit : Option Nat) (t : Terminal) : List Event :=
  t.emulator.startEvents ++
    (Outcome.visited isOver turn (Headless.framesLeft limit t.emulator) t).flatMap turnEvents ++
    match run limit t with
    | ⟨t, .ok ()⟩ => Headless.endEvents t.emulator
    | ⟨_, .error _⟩ => []

end Chip8.Terminal
