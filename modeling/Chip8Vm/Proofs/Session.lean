import Chip8Vm.Emulator.Session
import Chip8Vm.Proofs.Step

/-!
# Along a session

Where a list of events leads an emulator, and which instructions are executed on the way. A closed
emulator goes nowhere, so that events after others are those of the emulator the others lead to
(`after_append`), and the turns of a session are its emulators handling one event each
(`turns_concat`).
-/

namespace Chip8Vm.Emulator

variable {random : Nat → Nat} {e : Emulator}

/-- The emulator after some events. -/
def after (random : Nat → Nat) (events : List Event) (e : Emulator) : Emulator :=
  afterTurns (e.turns random events) e

theorem after_nil (random : Nat → Nat) (e : Emulator) : e.after random [] = e := rfl

theorem after_closed (events : List Event) (h : e.closed = true) : e.after random events = e := by
  rw [after, turns_closed random events h]
  rfl

theorem after_cons (event : Event) (events : List Event) (h : e.closed = false) :
    e.after random (event :: events) = (e.handle random event).emulator.after random events := by
  simp only [after, turns, h, Bool.false_eq_true, if_false, afterTurns_cons]

theorem after_append (events events' : List Event) (e : Emulator) :
    e.after random (events ++ events') = (e.after random events).after random events' := by
  induction events generalizing e with
  | nil => rfl
  | cons event events ih =>
    cases h : e.closed with
    | true => rw [after_closed _ h, after_closed _ h, after_closed _ h]
    | false => rw [List.cons_append, after_cons _ _ h, after_cons _ _ h, ih]

/-- What is open after some events was open all along. -/
theorem open_of_open_after {events : List Event} (h : (e.after random events).closed = false) :
    e.closed = false := by
  cases hclosed : e.closed with
  | false => rfl
  | true => rw [after_closed _ hclosed, hclosed] at h; exact h

/-- The turn that answers one more event is the last one. -/
theorem turns_concat (events : List Event) (event : Event)
    (h : (e.after random events).closed = false) :
    e.turns random (events ++ [event]) =
      e.turns random events ++ [(e.after random events).handle random event] := by
  rw [turns_append]
  show _ ++ turns random [event] (e.after random events) = _
  simp only [turns, h, Bool.false_eq_true, if_false]

/-! ## Executed instructions -/

/-- The instructions that some ticks of the processor's clock execute. -/
def tickInstructions (random : Nat → Nat) : Nat → Emulator → List Instruction
  | 0, _ => []
  | n + 1, e =>
    if .cpu ∈ e.scheduled then
      (e.machine.step random e.tracing).executed ++
        tickInstructions random n (e.tick random).emulator
    else []

/-- The instructions that are executed while an event is answered. -/
def instructionsOf (random : Nat → Nat) (event : Event) (e : Emulator) : List Instruction :=
  match event with
  | .tick times => e.tickInstructions random times
  | _ => []

/-- The instructions that are executed while some events are answered. -/
def instructions (random : Nat → Nat) : List Event → Emulator → List Instruction
  | [], _ => []
  | event :: events, e =>
    if e.closed then []
    else
      e.instructionsOf random event ++ instructions random events (e.handle random event).emulator

theorem instructions_closed (events : List Event) (h : e.closed = true) :
    e.instructions random events = [] := by
  cases events with
  | nil => rfl
  | cons event events => simp [instructions, h]

theorem instructions_cons (event : Event) (events : List Event) (h : e.closed = false) :
    e.instructions random (event :: events) =
      e.instructionsOf random event ++
        (e.handle random event).emulator.instructions random events := by
  simp only [instructions, h, Bool.false_eq_true, if_false]

/-- A tick of the processor's clock is a step of the machine, whether or not it faults. -/
theorem machine_tick (random : Nat → Nat) (e : Emulator) :
    (e.tick random).emulator.machine = (e.machine.step random e.tracing).state := by
  unfold tick
  cases hr : (e.machine.step random e.tracing).result <;> simp only [hr]

end Chip8Vm.Emulator
