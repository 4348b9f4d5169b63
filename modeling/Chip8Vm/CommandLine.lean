import Chip8Vm.Emulator.Session
import Chip8Vm.Operation

/-!
# The command line

The emulator is given the name of a program file. Without one it says how it is used; a file
that cannot be loaded is reported, and no window is opened. Otherwise the window is opened,
the host's events are played, and the exit code tells whether the machine faulted.
-/

namespace Chip8Vm.CommandLine

/-- The line that tells how the emulator is used. -/
def usage : String := "Usage: python -m chip8 romfile"

/-- Block transfers leave the address register alone unless asked otherwise. -/
def defaultAdvanceIndex : Bool := false

/-- Tracing is off until it is turned on. -/
def defaultTracing : Bool := false

/-- What a call of the emulator leads to. The session is missing when no window was opened. -/
structure Outcome where
  exit : Nat
  printed : List String
  opening : List Request
  /-- The machine before the first event. -/
  loaded : State
  turns : List Turn
  session : Option Emulator

/-- A call that ends before a window is opened. -/
def Outcome.stopped (lines : List String) (s : State) : Outcome := ⟨1, lines, [], s, [], none⟩

/-- Plays a script on the window of a loaded machine. -/
def playSession (env : Surroundings) (printed : List String) (script : Script) (s : State) :
    Outcome :=
  let start := Emulator.start s env.tracing
  let turns := start.emulator.turnsOfScript env.random script
  let last := start.emulator.afterTurns turns
  { exit := last.exitCode
    printed := printed ++ start.printed
    opening := start.requests
    loaded := s
    turns
    session := some last }

/-- The emulator called with some arguments. Only a name that is no path is not reported but passed
on as an error. -/
def call (env : Surroundings) (arguments : List String) (script : Script) (machine : State) :
    Except ReadError Outcome :=
  match arguments with
  | [] => .ok (.stopped [usage] machine)
  | path :: _ =>
    let r := machine.loadFile env.read env.tracing path
    match r.result with
    | .ok _ => .ok (playSession env r.printed script r.state)
    | .error (.unreadable .notPath) => .error .notPath
    | .error e =>
      .ok (.stopped (r.printed ++ ["Cannot load " ++ path ++ ": " ++ e.message]) r.state)

end Chip8Vm.CommandLine
