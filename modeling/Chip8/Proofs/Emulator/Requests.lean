import Chip8.Journal.Emulator
import Chip8.Proofs.Emulator.Rendering

/-!
# What a frontend asks of an emulator

A frontend asks an emulator for frames, with or without a picture, and tells it of keys.

* `Emulator.Request` and `Emulator.Reply`: a request and what the frontend gets back.
* `Emulator.serve` and `Emulator.serveAll`: the emulator after requests, with the replies.
* `Emulator.Request.journal`: what requests write into the journal.
* `Emulator.sound_serve` and `Emulator.sameShape_serve`: requests keep the machine sound and the shape of
  its screen.
-/

namespace Chip8

open Journal (Event)

namespace Emulator

/-- What a frontend asks of an emulator. -/
inductive Request where
  /-- A frame without a picture. -/
  | frame
  /-- A frame, and its picture in the buffer if the screen has changed. -/
  | update (buffer : FrameBuffer)
  /-- To take note of a key of the keyboard. -/
  | move (key : Key) (down : Bool)

/-- What the frontend gets back. -/
structure Reply where
  /-- Whether the request succeeded. -/
  result : Except Failure Unit
  /-- The buffer, if the frontend has given one. -/
  buffer : Option FrameBuffer

/-- The emulator after a request, and the reply. -/
def serve (e : Emulator) : Request → Emulator × Reply
  | .frame => (e.runFrame.state, ⟨e.runFrame.result, none⟩)
  | .update buffer =>
    let outcome := update (e, buffer)
    (outcome.state.1, ⟨outcome.result, some outcome.state.2⟩)
  | .move key down => (e.handleKey key down, ⟨.ok (), none⟩)

/-- The emulator after requests, one after the other, and the replies. -/
def serveAll : List Request → Emulator → Emulator × List Reply
  | [], e => (e, [])
  | request :: requests, e =>
    let (e, reply) := e.serve request
    let (e, replies) := serveAll requests e
    (e, reply :: replies)

/-- What a request writes into the journal. -/
def Request.events (e : Emulator) : Request → List Event
  | frame => e.frameEvents
  | update _ => e.advanceEvents
  | move key down => keyEvents key down

/-- What requests, one after the other, write into the journal. -/
def Request.journal : List Request → Emulator → List Event
  | [], _ => []
  | request :: requests, e => request.events e ++ journal requests (e.serve request).1

theorem serveAll_cons (request : Request) (requests : List Request) (e : Emulator) :
    serveAll (request :: requests) e =
      ((serveAll requests (e.serve request).1).1,
        (e.serve request).2 :: (serveAll requests (e.serve request).1).2) := rfl

/-- An update does the same to the emulator whatever buffer it is given. -/
theorem fst_serve_update (e : Emulator) (buffer : FrameBuffer) :
    (e.serve (.update buffer)).1 = e.advance.state := fst_update (e, buffer)

/-! ## What requests keep -/

theorem sound_handleKey {e : Emulator} (h : e.machine.Sound) (key : Key) (down : Bool) :
    (e.handleKey key down).machine.Sound := by
  rcases machine_handleKey e key down with hsame | ⟨slot, hset⟩
  · exact hsame ▸ h
  · exact hset ▸ Machine.sound_setKey h slot down

theorem sound_serve {e : Emulator} (h : e.machine.Sound) (request : Request) :
    (e.serve request).1.machine.Sound := by
  cases request with
  | frame => exact sound_runFrame h
  | update buffer => exact (fst_serve_update e buffer).symm ▸ (sound_advance h).1
  | move key down => exact sound_handleKey h key down

theorem sameShape_handleKey (e : Emulator) (key : Key) (down : Bool) :
    Screen.SameShape e.machine.screen (e.handleKey key down).machine.screen := by
  rcases machine_handleKey e key down with hsame | ⟨slot, hset⟩
  · exact hsame ▸ .refl e.machine.screen
  · rw [hset, Machine.screen_setKey]
    exact .refl e.machine.screen

theorem sameShape_runFrame (e : Emulator) :
    Screen.SameShape e.machine.screen e.runFrame.state.machine.screen :=
  (runFrame_related Machine.lasting_redrawn (fun m => .refl m.screen) e).shape

theorem sameShape_advance (e : Emulator) :
    Screen.SameShape e.machine.screen e.advance.state.machine.screen := by
  have hframe := e.sameShape_runFrame
  unfold advance
  split
  · exact .refl e.machine.screen
  · generalize e.runFrame = outcome at hframe ⊢
    obtain ⟨e', (_ | _) | _⟩ := outcome
    · exact ⟨hframe.height, hframe.width, hframe.size_pixels⟩
    · exact hframe
    · exact ⟨hframe.height, hframe.width, hframe.size_pixels⟩

theorem sameShape_serve (e : Emulator) (request : Request) :
    Screen.SameShape e.machine.screen (e.serve request).1.machine.screen := by
  cases request with
  | frame => exact e.sameShape_runFrame
  | update buffer => exact (fst_serve_update e buffer).symm ▸ e.sameShape_advance
  | move key down => exact e.sameShape_handleKey key down

end Emulator

end Chip8
