import Chip8Vm.CommandLine
import Chip8Vm.Emulator.Terminal
import Chip8Vm.Random.Source

/-!
# The program

Reads the program file, opens the session, and plays the events that come in on standard
input, one a line, until they end or the window is closed.
-/

namespace Chip8Vm.CommandLine

/-- The problem behind a failure of the file system, if it is one that is reported. -/
def problem? : IO.Error → Option PathProblem
  | .noFileOrDirectory _ _ _ => some .notFound
  | .inappropriateType _ 20 _ => some .notFolder
  | .inappropriateType _ 21 _ => some .isFolder
  | .invalidArgument _ 36 _ => some .nameTooLong
  | _ => none

/-- The content of a file, or why it cannot be read. -/
def readProgram (path : String) : IO (Except ReadError Bytes) := do
  try
    let content ← IO.FS.readBinFile path
    return .ok content.toList
  catch e =>
    match problem? e with
    | some problem => return .error (.refused problem path)
    | none => throw e

/-- Plays the events of an input stream. -/
partial def playInput (random : Nat → Nat) (input : IO.FS.Stream) (e : Emulator) : IO Emulator := do
  if e.closed then return e
  let line ← input.getLine
  if line.isEmpty then return e
  match Event.ofLine? line.trimAscii.toString with
  | none => playInput random input e
  | some event =>
    let turn := e.handle random event
    for text in turn.lines do
      IO.println text
    playInput random input turn.emulator

/-- Runs the emulator with a fresh random seed and gives its exit code. -/
def runProgram (arguments : List String) : IO UInt32 := do
  let content ← match arguments with
    | [] => pure (.error .notPath)
    | path :: _ => readProgram path
  let seed ← IO.rand 0 4294967295
  let env : Surroundings := ⟨(RandomSource.ofSeed seed).byte, defaultTracing, fun _ => content⟩
  match call env arguments [] (State.fresh defaultAdvanceIndex) with
  | .error e => throw (IO.userError e.message)
  | .ok outcome =>
    for text in outcome.printed do
      IO.println text
    match outcome.session with
    | none => return UInt32.ofNat outcome.exit
    | some e =>
      let last ← playInput env.random (← IO.getStdin) e
      return UInt32.ofNat last.exitCode

end Chip8Vm.CommandLine

def main (arguments : List String) : IO UInt32 := Chip8Vm.CommandLine.runProgram arguments
