import Chip8Vm.Emulator.Host
import Chip8Vm.Keypad
import Chip8Vm.Step

/-!
# Emulator sessions

The emulator keeps a machine, the picture last painted, whether tracing is on, and where it
stands with the host: which clocks are scheduled, whether the window is closed, and the fault
that stopped it. Each event is one turn, whose requests and printed lines are given in order.
A faulting step stops both clocks and closes the window, and a session ends with the event
that closes the window. A script, in which events are repeated, is answered as the list of its
events is (`turnsOfScript_eq_turns`).
-/

namespace Chip8Vm

structure Emulator where
  machine : State
  /-- The picture last painted, which the next one is painted over. -/
  canvas : Picture 32 64
  tracing : Bool
  scheduled : List Clock
  closed : Bool
  fault : Option Fault

/-- An emulator after a call, with what it asked of the host and what it printed. -/
structure Turn where
  emulator : Emulator
  requests : List Request
  printed : List String

namespace Emulator

/-- How much larger than the display the window is. -/
def scale : Nat := 10

/-- Columns and rows of the window. -/
def windowSize : Nat × Nat := (64 * scale, 32 * scale)

/-- Bytes of a pixel: red, green, blue and alpha. -/
def pixelBytes : Nat := 4

/-- Bytes of the picture that fills the window. -/
def pictureBytes : Nat := windowSize.1 * windowSize.2 * pixelBytes

/-- Opens the window of a machine: the window, an empty picture, and the two clocks. -/
def start (machine : State) (tracing : Bool) : Turn where
  emulator :=
    { machine, canvas := Picture.uniform 32 64 ⟨0, 0, 0, 255⟩, tracing,
      scheduled := [.cpu, .timers], closed := false, fault := none }
  requests :=
    let (width, height) := windowSize
    [ .openWindow width height "CHIP-8 Emulator" false,
      .createPicture width height pictureBytes true,
      .schedule .cpu Clock.cpu.rate,
      .schedule .timers Clock.timers.rate ]
  printed := []

/-- A turn without requests or printed lines. -/
def quiet (e : Emulator) : Turn := ⟨e, [], []⟩

/-- The requests that stop both clocks. -/
def stopRequests : List Request := [.unschedule .cpu, .unschedule .timers]

/-- One tick of the processor's clock. -/
def tick (random : Nat → Nat) (e : Emulator) : Turn :=
  let r := e.machine.step random e.tracing
  match r.result with
  | .ok _ => ⟨{ e with machine := r.state }, [], r.printed⟩
  | .error f =>
    ⟨{ e with machine := r.state, fault := some f, scheduled := [], closed := true },
      stopRequests ++ [.closeWindow],
      r.printed ++ ["Emulation error: " ++ f.message]⟩

/-- Ticks of the processor's clock, as long as it is scheduled. -/
def ticks (random : Nat → Nat) : Nat → Emulator → Turn
  | 0, e => e.quiet
  | n + 1, e =>
    if .cpu ∈ e.scheduled then
      let first := e.tick random
      let rest := ticks random n first.emulator
      ⟨rest.emulator, first.requests ++ rest.requests, first.printed ++ rest.printed⟩
    else e.quiet

/-- Ticks of the timers' clock, as long as it is scheduled. -/
def timerTicks : Nat → Emulator → Emulator
  | 0, e => e
  | n + 1, e =>
    if .timers ∈ e.scheduled then timerTicks n { e with machine := e.machine.tickTimers } else e

/-- Shows the display: a changed one is painted and handed over first. -/
def draw (e : Emulator) : Turn :=
  let showing : List Request := [.clearWindow, .showPicture 0 0]
  if e.machine.dirty then
    let canvas := e.canvas.paint e.machine.display
    ⟨{ e with canvas, machine := e.machine.clearDirty },
      .setPicture (windowSize.1 * pixelBytes) (canvas.enlarge scale) :: showing, []⟩
  else ⟨e, showing, []⟩

/-- A key of the keypad goes down: it is held from now on, and ends a wait. -/
def pressKey (k : Fin 16) (e : Emulator) : Turn :=
  let held := (e.machine.setKey k.val true).state
  let r := held.deliverKey k.val
  ⟨{ e with machine := r.state }, [],
    match r.result with
    | .ok true =>
      Trace.log e.tracing
        ["Key " ++ Numeral.hex 1 k.val ++ " delivered to " ++ r.state.keyRegister.name]
    | _ => []⟩

/-- A key goes down. -/
def press (key : HostKey) (e : Emulator) : Turn :=
  match key with
  | .escape => ⟨{ e with closed := true }, [.closeWindow], []⟩
  | .f1 =>
    ⟨{ e with tracing := !e.tracing }, [],
      [if e.tracing then "logsOn: False" else "logsOn: True"]⟩
  | key =>
    match key.keypad? with
    | some k => e.pressKey k
    | none => e.quiet

/-- A key goes up. -/
def release (key : HostKey) (e : Emulator) : Emulator :=
  match key.keypad? with
  | some k => { e with machine := (e.machine.setKey k.val false).state }
  | none => e

/-- The host asks to close the window: both clocks stop first. -/
def close (e : Emulator) : Turn :=
  ⟨{ e with scheduled := [], closed := true }, stopRequests ++ [.defaultClose, .closeWindow], []⟩

/-- The turn that answers an event. -/
def handle (random : Nat → Nat) (event : Event) (e : Emulator) : Turn :=
  match event with
  | .tick times => e.ticks random times
  | .timer times => (e.timerTicks times).quiet
  | .draw => e.draw
  | .press key => e.press key
  | .release key => (e.release key).quiet
  | .close => e.close

/-- The turns that answer a list of events, up to the one that closes the window. -/
def turns (random : Nat → Nat) : List Event → Emulator → List Turn
  | [], _ => []
  | event :: events, e =>
    if e.closed then []
    else
      let turn := e.handle random event
      turn :: turns random events turn.emulator

/-- The emulator after some turns. -/
def afterTurns (turns : List Turn) (e : Emulator) : Emulator :=
  (turns.getLast?.map (·.emulator)).getD e

theorem afterTurns_cons (turn : Turn) (turns : List Turn) (e : Emulator) :
    afterTurns (turn :: turns) e = afterTurns turns turn.emulator := by
  cases turns with
  | nil => rfl
  | cons next rest => simp [afterTurns, List.getLast?_cons]

/-- A closed emulator answers no more events. -/
theorem turns_closed (random : Nat → Nat) (events : List Event) {e : Emulator}
    (h : e.closed = true) : e.turns random events = [] := by
  cases events with
  | nil => rfl
  | cons event events => simp [turns, h]

/-- Events after others are answered by the emulator that the others lead to. -/
theorem turns_append (random : Nat → Nat) (events events' : List Event) (e : Emulator) :
    e.turns random (events ++ events') =
      e.turns random events ++ (afterTurns (e.turns random events) e).turns random events' := by
  induction events generalizing e with
  | nil => rfl
  | cons event events ih =>
    by_cases h : e.closed = true
    · simp [turns_closed random _ h, afterTurns]
    · simp only [List.cons_append, turns, h, if_false, Bool.false_eq_true, ih, afterTurns_cons]

/-- The turns of an event that happens many times in a row. -/
def turnsOfRepeated (random : Nat → Nat) (event : Event) : Nat → Emulator → List Turn
  | 0, _ => []
  | n + 1, e =>
    if e.closed then []
    else
      let turn := e.handle random event
      turn :: turnsOfRepeated random event n turn.emulator

/-- The turns that answer a script. What follows the close of the window is not looked at. -/
def turnsOfScript (random : Nat → Nat) : Script → Emulator → List Turn
  | [], _ => []
  | (event, times) :: script, e =>
    let first := e.turnsOfRepeated random event times
    first ++ turnsOfScript random script (afterTurns first e)

theorem turnsOfRepeated_eq_turns (random : Nat → Nat) (event : Event) (n : Nat) (e : Emulator) :
    e.turnsOfRepeated random event n = e.turns random (List.replicate n event) := by
  induction n generalizing e with
  | zero => rfl
  | succ n ih => simp only [turnsOfRepeated, List.replicate_succ, turns, ih]

/-- A script is answered as its events are. -/
theorem turnsOfScript_eq_turns (random : Nat → Nat) (script : Script) (e : Emulator) :
    e.turnsOfScript random script = e.turns random script.events := by
  induction script generalizing e with
  | nil => rfl
  | cons run script ih =>
    obtain ⟨event, times⟩ := run
    rw [turnsOfScript, turnsOfRepeated_eq_turns, ih]
    exact (turns_append random _ _ e).symm

/-- The code that a session ends with: whether the machine faulted. -/
def exitCode (e : Emulator) : Nat := if e.fault.isSome then 1 else 0

end Emulator

end Chip8Vm
