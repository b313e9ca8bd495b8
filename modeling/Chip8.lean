import Chip8.CommandLine
import Chip8.Journal.Terminal
import Chip8.Main
import Chip8.Terminal.KeyEvent
import Chip8.Proofs.Emulator.Rendering
import Chip8.Proofs.Machine.Resetting
import Chip8.Proofs.Machine.Waiting
import Chip8.Proofs.Reference.Simulation
import Chip8.Proofs.Terminal.KeyHold
import Chip8.Proofs.Machine.FallingThrough
import Chip8.Proofs.CallStack.Nesting
import Chip8.Proofs.Machine.Calls
import Chip8.Proofs.Terminal.Unattended
import Chip8.Proofs.Emulator.Debugging
import Chip8.Proofs.Emulator.LifeCycle
import Chip8.Proofs.Emulator.Schedule
import Chip8.Proofs.Play
import Chip8.Proofs.Random.Draws
import Chip8.Proofs.Terminal.Replay
import Chip8.Proofs.Emulator.FrameLimit
import Chip8.Proofs.Machine.Drawing
import Chip8.Proofs.Machine.ConsecutiveBlocks
import Chip8.Proofs.Machine.Decimals
import Chip8.Proofs.Opcode.Fields
import Chip8.Proofs.Opcode.Grammar
import Chip8.Proofs.Instruction.Disassembly
import Chip8.Proofs.Emulator.Timers
import Chip8.Proofs.Machine.SnapshotText
