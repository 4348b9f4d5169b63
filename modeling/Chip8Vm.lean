import Chip8Vm.CommandLine
import Chip8Vm.Display.Frame
import Chip8Vm.Display.Picture
import Chip8Vm.Display.Rendering
import Chip8Vm.Display.Runs
import Chip8Vm.Display.Sprite
import Chip8Vm.Effect
import Chip8Vm.Emulator.Host
import Chip8Vm.Emulator.Session
import Chip8Vm.Emulator.Terminal
import Chip8Vm.Fault
import Chip8Vm.Folder
import Chip8Vm.Font
import Chip8Vm.Instruction.Basic
import Chip8Vm.Instruction.Mnemonic
import Chip8Vm.Instruction.Table
import Chip8Vm.Keypad
import Chip8Vm.Main
import Chip8Vm.Memory
import Chip8Vm.Operation
import Chip8Vm.Program
import Chip8Vm.Proofs.AddressWrap
import Chip8Vm.Proofs.Arithmetic
import Chip8Vm.Proofs.BlockTransfer
import Chip8Vm.Proofs.Callbacks
import Chip8Vm.Proofs.Closing
import Chip8Vm.Proofs.Concern
import Chip8Vm.Proofs.DeadCells
import Chip8Vm.Proofs.DecimalDigits
import Chip8Vm.Proofs.Disassembly
import Chip8Vm.Proofs.DrawingOrder
import Chip8Vm.Proofs.ExitCode
import Chip8Vm.Proofs.FaultText
import Chip8Vm.Proofs.Footprint
import Chip8Vm.Proofs.Grammar
import Chip8Vm.Proofs.Guarded.Agreement
import Chip8Vm.Proofs.Guarded.Handlers
import Chip8Vm.Proofs.Guarded.Machine
import Chip8Vm.Proofs.Interleaving
import Chip8Vm.Proofs.Invariant
import Chip8Vm.Proofs.KeyWait
import Chip8Vm.Proofs.Keyboard
import Chip8Vm.Proofs.Loading
import Chip8Vm.Proofs.Moves
import Chip8Vm.Proofs.Painting
import Chip8Vm.Proofs.ProgramCounter
import Chip8Vm.Proofs.RandomBytes
import Chip8Vm.Proofs.ReadFootprint
import Chip8Vm.Proofs.Reading
import Chip8Vm.Proofs.Refusal
import Chip8Vm.Proofs.Rendering
import Chip8Vm.Proofs.Reset
import Chip8Vm.Proofs.Screen
import Chip8Vm.Proofs.Session
import Chip8Vm.Proofs.Simulation
import Chip8Vm.Proofs.Slices
import Chip8Vm.Proofs.SpritePixels
import Chip8Vm.Proofs.Step
import Chip8Vm.Proofs.Subroutine
import Chip8Vm.Proofs.Timers
import Chip8Vm.Proofs.Tracing
import Chip8Vm.Proofs.Verdict
import Chip8Vm.Proofs.WellFormed
import Chip8Vm.Random.Source
import Chip8Vm.Random.Twister
import Chip8Vm.Reply
import Chip8Vm.Report
import Chip8Vm.State
import Chip8Vm.Step
import Chip8Vm.Text.ByteSize
import Chip8Vm.Text.Numeral
import Chip8Vm.Text.Printable
import Chip8Vm.Text.Quoted
import Chip8Vm.Trace
