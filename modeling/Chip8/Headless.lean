import Chip8.Emulator

/-!
# Running without a display

A headless run repeats frames, with their pictures in a buffer that nobody sees, until there is nothing
left to run or a number of frames has been reached.  The count is that of the emulator, so a run that was
cut short can be taken up again.

A run without a limit looks at no count.  It is cut all the same where the count would no longer fit
into 64 bits; what is beyond that is left out.
-/

namespace Chip8.Headless

/-- The largest 64-bit frame count. -/
def lastFrame : Nat := UInt64.size - 1

/-- The number of frames that an emulator has left up to a limit, or, without one, as long as they can be
counted. -/
def framesLeft (limit : Option Nat) (e : Emulator) : Nat := limit.getD lastFrame - e.frames

/-- Repeats frames with their pictures up to a limit of frames. -/
def loop (limit : Option Nat) (state : Emulator × FrameBuffer) :
    Outcome (Emulator × FrameBuffer) Failure Unit :=
  .repeatUntil (·.1.isOver) Emulator.update (framesLeft limit state.1) state

/-- Runs an emulator up to a limit of frames. -/
def run (limit : Option Nat) (e : Emulator) : Outcome Emulator Failure Unit :=
  (loop limit (e, .blank)).within Prod.fst

end Chip8.Headless
