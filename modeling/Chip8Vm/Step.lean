import Chip8Vm.Effect
import Chip8Vm.Instruction.Mnemonic
import Chip8Vm.Instruction.Table
import Chip8Vm.Reply
import Chip8Vm.Report
import Chip8Vm.Trace

/-!
# Execution

One step fetches, decodes and executes an instruction, and gives that instruction back. A
machine that waits for a key does nothing and gives none. A fault puts the program counter back
and reports the state. While tracing, a step prints the instruction before it takes effect. A run is
a number of steps, cut short by a fault or by a wait; of a machine that waits it is nothing
(`run_waiting`).
-/

namespace Chip8Vm.State

/-- The line that tracing prints for an instruction. -/
def traceLine (s : State) (i : Instruction) : String :=
  Numeral.hex 3 s.pc ++ ": " ++ Numeral.hex 4 i.word ++ "  " ++ i.mnemonic

/-- All that tracing prints for an instruction: a system call is also said to have no effect. -/
def traceOf (tracing : Bool) (s : State) (i : Instruction) : List String :=
  Trace.log tracing [s.traceLine i] ++
    if i.op = .system then Trace.log tracing ["SYS call ignored (0nnn)"] else []

/-- What a fault leaves behind: the program counter stands on the faulting instruction again, and
the fault carries that address and a report of the state. -/
def retreat (pc : Int) (f : Fault) (s : State) : Reply Fault (Option Instruction) :=
  let back := { s with pc }
  .refuse { f with pc, report := back.report } back

/-- Executes a decoded instruction at the program counter, without looking at the wait. -/
def dispatch (random : Nat → Nat) (tracing : Bool) (i : Instruction) (s : State) :
    Reply Fault (Option Instruction) :=
  let r := { s with pc := s.pc + 2 }.execute random i
  Reply.after (s.traceOf tracing i)
    (match r.result with
      | .ok _ => .ok (some i) r.state
      | .error f => r.state.retreat s.pc f)

/-- One step of the machine. -/
def step (random : Nat → Nat) (tracing : Bool) (s : State) : Reply Fault (Option Instruction) :=
  if s.waiting then .ok none s
  else
    match s.fetch? with
    | none => s.retreat s.pc ⟨.programCounter, none, s.pc, ""⟩
    | some w =>
      match Instruction.decode w s.pc with
      | .error f => s.retreat s.pc f
      | .ok i => s.dispatch random tracing i

/-- At most `n` steps. -/
def runSteps (random : Nat → Nat) (tracing : Bool) : Nat → State → Reply Fault Unit
  | 0, s => .ok () s
  | n + 1, s =>
    let r := s.step random tracing
    match r.result with
    | .error f => ⟨.error f, r.state, r.printed⟩
    | .ok none => ⟨.ok (), r.state, r.printed⟩
    | .ok (some _) => (runSteps random tracing n r.state).after r.printed

/-- At most `cycles` steps; none if the number is not positive. -/
def run (random : Nat → Nat) (tracing : Bool) (cycles : Int) (s : State) : Reply Fault Unit :=
  runSteps random tracing cycles.toNat s

theorem step_waiting {random : Nat → Nat} {tracing : Bool} {s : State} (h : s.waiting = true) :
    s.step random tracing = .ok none s := by
  simp [step, h]

theorem run_waiting {random : Nat → Nat} {tracing : Bool} {cycles : Int} {s : State}
    (h : s.waiting = true) : s.run random tracing cycles = .ok () s := by
  rw [run]
  cases cycles.toNat with
  | zero => rfl
  | succ n => simp [runSteps, step_waiting h, Reply.ok]

end Chip8Vm.State
