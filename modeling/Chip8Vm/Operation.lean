import Chip8Vm.Keypad
import Chip8Vm.Program
import Chip8Vm.Step

/-!
# Operations

All calls on a machine as one type, so that a history of a machine is a list. What an
operation may use besides the state stands in its surroundings: the random bytes, whether
tracing is on, and the files.
-/

namespace Chip8Vm

structure Surroundings where
  /-- The random bytes, by their place in the stream. -/
  random : Nat → Nat
  tracing : Bool
  read : String → Except ReadError Bytes

inductive Operation
  | step
  | run (cycles : Int)
  | load (program : Bytes)
  | loadFile (path : String)
  | setKey (key : Int) (held : Bool)
  | deliverKey (key : Int)
  | tickTimers
  | clearDirty
  | reset
  | isDirty
  | display
  | fetch
  | report
deriving DecidableEq

/-- What an operation gives back. -/
inductive Answer
  | done
  | instruction (i : Option Instruction)
  | size (n : Nat)
  | flag (b : Bool)
  | word (w : Nat)
  | display (d : Display)
  | text (t : String)
deriving DecidableEq

/-- Why an operation is refused. -/
inductive Refusal
  | fault (f : Fault)
  | tooLarge (e : TooLarge)
  | unreadable (e : ReadError)
  | key (e : KeyError)
  /-- There is no word at the program counter. -/
  | noWord
deriving DecidableEq

def Refusal.ofLoadError : LoadError → Refusal
  | .tooLarge e => .tooLarge e
  | .unreadable e => .unreadable e

def Refusal.message : Refusal → String
  | .fault f => f.message
  | .tooLarge e => e.message
  | .unreadable e => e.message
  | .key e => e.message
  | .noWord => "bytearray index out of range"

/-- Performs one operation. -/
def Operation.perform (env : Surroundings) (op : Operation) (s : State) : Reply Refusal Answer :=
  match op with
  | .step => (s.step env.random env.tracing).relabel .fault .instruction
  | .run cycles => (s.run env.random env.tracing cycles).relabel .fault fun _ => .done
  | .load program => (s.load program).relabel .tooLarge .size
  | .loadFile path => (s.loadFile env.read env.tracing path).relabel .ofLoadError .size
  | .setKey key held => (s.setKey key held).relabel .key fun _ => .done
  | .deliverKey key => (s.deliverKey key).relabel .key .flag
  | .tickTimers => .ok .done s.tickTimers
  | .clearDirty => .ok .done s.clearDirty
  | .reset => .ok .done s.reset
  | .isDirty => .ok (.flag s.dirty) s
  | .display => .ok (.display s.display) s
  | .fetch =>
    match s.memory.word? s.pc with
    | some w => .ok (.word w) s
    | none => .refuse .noWord s
  | .report => .ok (.text s.report) s

/-- The state after a history, refused operations included. -/
def State.after (env : Surroundings) (history : List Operation) (s : State) : State :=
  history.foldl (fun s op => (op.perform env s).state) s

/-- The replies along a history. -/
def State.replies (env : Surroundings) : List Operation → State → List (Reply Refusal Answer)
  | [], _ => []
  | op :: history, s =>
    let r := op.perform env s
    r :: replies env history r.state

end Chip8Vm
