import Chip8Vm.Operation
import Chip8Vm.Proofs.Refusal
import Chip8Vm.Proofs.Session

/-!
# Callback by callback

One event of a session may be many ticks of a clock. The callbacks of a session are the single
calls that its events come to, a tick at a time and no more of them than the clock is scheduled
for, and each callback knows the emulator that it finds. `Plays` says that callbacks follow on one
another, each of them while the window is open, and what they come to together; this is what the
turns of the session come to (`plays_callbacks`). To the machine a callback is a few operations
(`Signal.machine_answer`).
-/

namespace Chip8Vm

/-- What the host tells the emulator in a single call. -/
inductive Signal
  | tick (clock : Clock)
  | draw
  | press (key : HostKey)
  | release (key : HostKey)
  | close
deriving DecidableEq, Repr

/-- The turn that answers a signal. -/
def Signal.answer (random : Nat → Nat) (signal : Signal) (e : Emulator) : Turn :=
  match signal with
  | .tick .cpu => e.tick random
  | .tick .timers => Emulator.quiet { e with machine := e.machine.tickTimers }
  | .draw => e.draw
  | .press key => e.press key
  | .release key => (e.release key).quiet
  | .close => e.close

/-- Whether a request opens a window. -/
def Request.opensWindow : Request → Bool
  | .openWindow .. => true
  | _ => false

/-- What a signal does to the machine that it finds. -/
def Signal.operations (signal : Signal) (s : State) : List Operation :=
  match signal with
  | .tick .cpu => [.step]
  | .tick .timers => [.tickTimers]
  | .draw => if s.dirty then [.clearDirty] else []
  | .press key =>
    match key.keypad? with
    | some k => [.setKey k.val true, .deliverKey k.val]
    | none => []
  | .release key =>
    match key.keypad? with
    | some k => [.setKey k.val false]
    | none => []
  | .close => []

/-- A signal, and the emulator that it finds. -/
structure Callback where
  before : Emulator
  signal : Signal

namespace Callback

variable (random : Nat → Nat) (c : Callback)

def turn : Turn := c.signal.answer random c.before

/-- The fault of a callback, if it is a tick of the processor's clock whose step faults. -/
def fault? : Option Fault :=
  match c.signal with
  | .tick .cpu =>
    match (c.before.machine.step random c.before.tracing).result with
    | .error f => some f
    | .ok _ => none
  | _ => none

end Callback

/-- Two turns one after the other. -/
def Turn.andThen (t t' : Turn) : Turn :=
  ⟨t'.emulator, t.requests ++ t'.requests, t.printed ++ t'.printed⟩

theorem Turn.andThen_quiet (t : Turn) : t.andThen t.emulator.quiet = t := by
  simp [andThen, Emulator.quiet]

theorem Turn.andThen_assoc (t t' t'' : Turn) :
    (t.andThen t').andThen t'' = t.andThen (t'.andThen t'') := by
  simp only [andThen, List.append_assoc]

variable {random : Nat → Nat} {e : Emulator}

/-- Callbacks that follow on one another from an emulator, each of them before the window is
closed, and the turn that they come to together. -/
inductive Plays (random : Nat → Nat) : Emulator → List Callback → Turn → Prop
  | nil (e : Emulator) : Plays random e [] e.quiet
  | cons (c : Callback) {l : List Callback} {t : Turn} (hopen : c.before.closed = false)
      (h : Plays random (c.turn random).emulator l t) :
      Plays random c.before (c :: l) ((c.turn random).andThen t)

namespace Plays

variable {c : Callback} {l l' : List Callback} {t t' : Turn}

theorem single (c : Callback) (hopen : c.before.closed = false) :
    Plays random c.before [c] (c.turn random) := by
  have h := cons c hopen (nil (c.turn random).emulator)
  rwa [Turn.andThen_quiet] at h

theorem append (h : Plays random e l t) (h' : Plays random t.emulator l' t') :
    Plays random e (l ++ l') (t.andThen t') := by
  induction h with
  | nil => exact h'
  | cons c hopen _ ih =>
    rw [Turn.andThen_assoc]
    exact .cons c hopen (ih h')

/-- A callback on the way finds an open window, and the later ones go on from its turn. -/
theorem split (h : Plays random e (l ++ c :: l') t) :
    c.before.closed = false ∧ ∃ t', Plays random (c.turn random).emulator l' t' := by
  induction l generalizing e t with
  | nil =>
    cases h with
    | cons _ hopen hrest => exact ⟨hopen, _, hrest⟩
  | cons first l ih =>
    cases h with
    | cons _ _ hrest => exact ih hrest

/-- The callbacks up to one on the way lead to the emulator that it finds, and the later ones lead
from its turn to the end. -/
theorem parts (h : Plays random e (l ++ c :: l') t) :
    (∃ t', Plays random e l t' ∧ t'.emulator = c.before) ∧
      ∃ t', Plays random (c.turn random).emulator l' t' ∧ t'.emulator = t.emulator := by
  induction l generalizing e t with
  | nil =>
    cases h with
    | cons _ hopen hrest => exact ⟨⟨_, .nil _, rfl⟩, _, hrest, rfl⟩
  | cons first l ih =>
    cases h with
    | cons _ hopen hrest =>
      obtain ⟨⟨t', hearlier, hbefore⟩, hlater⟩ := ih hrest
      exact ⟨⟨_, .cons first hopen hearlier, hbefore⟩, hlater⟩

theorem eq_quiet_of_nil (h : Plays random e [] t) : t = e.quiet := by
  cases h
  rfl

/-- A closed window gets no callbacks. -/
theorem eq_nil_of_closed (h : Plays random e l t) (hclosed : e.closed = true) : l = [] := by
  cases h with
  | nil => rfl
  | cons c hopen _ =>
    rw [hopen] at hclosed
    cases hclosed

/-- What each callback keeps holds before each of them, and at the end. -/
theorem keeps {P : Emulator → Prop} (h : Plays random e l t)
    (hturn : ∀ c ∈ l, P c.before → P (c.turn random).emulator) (he : P e) :
    P t.emulator ∧ ∀ c ∈ l, P c.before := by
  induction h with
  | nil => exact ⟨he, fun c hc => absurd hc List.not_mem_nil⟩
  | cons c _ _ ih =>
    have hnext := hturn c (List.mem_cons_self ..) he
    obtain ⟨hlast, hall⟩ := ih (fun c' hc' => hturn c' (List.mem_cons_of_mem _ hc')) hnext
    refine ⟨hlast, fun c' hc' => ?_⟩
    rcases List.mem_cons.1 hc' with rfl | hlater
    · exact he
    · exact hall c' hlater

/-- What no callback asks for is not asked for at all. -/
theorem any_requests {p : Request → Bool} (h : Plays random e l t)
    (hturn : ∀ c ∈ l, (c.turn random).requests.any p = false) : t.requests.any p = false := by
  induction h with
  | nil => rfl
  | cons c _ _ ih =>
    have hfirst := hturn c (List.mem_cons_self ..)
    have hlater := ih fun c' hc' => hturn c' (List.mem_cons_of_mem _ hc')
    rw [Turn.andThen, List.any_append, hfirst, hlater, Bool.or_false]

end Plays

namespace Emulator

/-! ## The callbacks of events -/

/-- The callbacks of a clock that has ticked so many times, as long as it is scheduled. -/
def clockCallbacks (random : Nat → Nat) (clock : Clock) : Nat → Emulator → List Callback
  | 0, _ => []
  | n + 1, e =>
    if clock ∈ e.scheduled then
      let first : Callback := ⟨e, .tick clock⟩
      first :: clockCallbacks random clock n (first.turn random).emulator
    else []

/-- The callbacks of an event. -/
def callbacksOf (random : Nat → Nat) (event : Event) (e : Emulator) : List Callback :=
  match event with
  | .tick times => e.clockCallbacks random .cpu times
  | .timer times => e.clockCallbacks random .timers times
  | .draw => [⟨e, .draw⟩]
  | .press key => [⟨e, .press key⟩]
  | .release key => [⟨e, .release key⟩]
  | .close => [⟨e, .close⟩]

/-- The callbacks of some events, up to the one that closes the window. -/
def callbacks (random : Nat → Nat) : List Event → Emulator → List Callback
  | [], _ => []
  | event :: events, e =>
    if e.closed then []
    else e.callbacksOf random event ++ callbacks random events (e.handle random event).emulator

/-- The turns that answer some events, taken together. -/
def session (random : Nat → Nat) (events : List Event) (e : Emulator) : Turn where
  emulator := e.after random events
  requests := (e.turns random events).flatMap (·.requests)
  printed := (e.turns random events).flatMap (·.printed)

theorem session_closed (events : List Event) (h : e.closed = true) :
    e.session random events = e.quiet := by
  rw [session, after_closed events h, turns_closed random events h]
  rfl

theorem session_cons (event : Event) (events : List Event) (h : e.closed = false) :
    e.session random (event :: events) =
      (e.handle random event).andThen ((e.handle random event).emulator.session random events) := by
  rw [session, after_cons event events h]
  simp only [turns, h, Bool.false_eq_true, if_false, List.flatMap_cons]
  rfl

theorem tick_ok {a : Option Instruction} (h : (e.machine.step random e.tracing).result = .ok a) :
    e.tick random =
      ⟨{ e with machine := (e.machine.step random e.tracing).state }, [],
        (e.machine.step random e.tracing).printed⟩ := by
  simp only [tick, h]

/-- A step that faults has not changed the machine. -/
theorem tick_error {f : Fault} (h : (e.machine.step random e.tracing).result = .error f) :
    e.tick random =
      ⟨{ e with fault := some f, scheduled := [], closed := true },
        stopRequests ++ [.closeWindow],
        (e.machine.step random e.tracing).printed ++ ["Emulation error: " ++ f.message]⟩ := by
  simp only [tick, h, State.state_of_step_error h]

/-- A tick that closes the window also stops the clocks. -/
theorem open_or_stopped_tick (random : Nat → Nat) (h : e.closed = false) :
    (e.tick random).emulator.closed = false ∨ (e.tick random).emulator.scheduled = [] := by
  cases hr : (e.machine.step random e.tracing).result with
  | ok a =>
    rw [tick_ok hr]
    exact .inl h
  | error f =>
    rw [tick_error hr]
    exact .inr rfl

/-- Ticks of the processor's clock are answered as their callbacks are. -/
theorem plays_ticks (n : Nat) (h : e.closed = false ∨ e.scheduled = []) :
    Plays random e (e.clockCallbacks random .cpu n) (e.ticks random n) := by
  induction n generalizing e with
  | zero => exact .nil e
  | succ n ih =>
    unfold clockCallbacks ticks
    by_cases hcpu : Clock.cpu ∈ e.scheduled
    · rw [if_pos hcpu, if_pos hcpu]
      have hopen : e.closed = false := h.resolve_right (List.ne_nil_of_mem hcpu)
      exact .cons ⟨e, .tick .cpu⟩ hopen (ih (open_or_stopped_tick random hopen))
    · rw [if_neg hcpu, if_neg hcpu]
      exact .nil e

theorem plays_timerTicks (n : Nat) (hopen : e.closed = false) :
    Plays random e (e.clockCallbacks random .timers n) (e.timerTicks n).quiet := by
  induction n generalizing e with
  | zero => exact .nil e
  | succ n ih =>
    unfold clockCallbacks timerTicks
    by_cases htimers : Clock.timers ∈ e.scheduled
    · rw [if_pos htimers, if_pos htimers]
      exact .cons ⟨e, .tick .timers⟩ hopen (ih hopen)
    · rw [if_neg htimers, if_neg htimers]
      exact .nil e

/-- An event is answered as its callbacks are. -/
theorem plays_handle (event : Event) (hopen : e.closed = false) :
    Plays random e (e.callbacksOf random event) (e.handle random event) := by
  cases event with
  | tick times => exact plays_ticks times (.inl hopen)
  | timer times => exact plays_timerTicks times hopen
  | draw => exact .single ⟨e, .draw⟩ hopen
  | press key => exact .single ⟨e, .press key⟩ hopen
  | release key => exact .single ⟨e, .release key⟩ hopen
  | close => exact .single ⟨e, .close⟩ hopen

/-- Events are answered as their callbacks are. -/
theorem plays_callbacks (random : Nat → Nat) (events : List Event) (e : Emulator) :
    Plays random e (e.callbacks random events) (e.session random events) := by
  induction events generalizing e with
  | nil => exact .nil e
  | cons event events ih =>
    unfold callbacks
    cases hclosed : e.closed with
    | true =>
      rw [session_closed _ hclosed, if_pos rfl]
      exact .nil e
    | false =>
      rw [session_cons event events hclosed, if_neg Bool.false_ne_true]
      exact (plays_handle event hclosed).append (ih _)

end Emulator

/-! ## What a callback does -/

namespace Emulator

/-- A key of the keypad is neither of the keys of the emulator. -/
theorem press_keypad {key : HostKey} {k : Fin 16} (hkey : key.keypad? = some k) (e : Emulator) :
    e.press key = e.pressKey k := by
  cases key with
  | char c =>
    unfold press
    simp only [hkey]
  | _ => cases hkey

/-- Any other key leaves the machine alone, and opens no window. -/
theorem press_other {key : HostKey} (hkey : key.keypad? = none) (e : Emulator) :
    ∃ tracing closed, (e.press key).emulator = { e with tracing, closed } ∧
      (e.press key).requests.any Request.opensWindow = false := by
  cases key with
  | escape => exact ⟨e.tracing, true, rfl, rfl⟩
  | f1 => exact ⟨!e.tracing, e.closed, rfl, rfl⟩
  | char c =>
    have hquiet : e.press (.char c) = e.quiet := by
      unfold press
      simp only [hkey]
    rw [hquiet]
    exact ⟨e.tracing, e.closed, rfl, rfl⟩
  | other => exact ⟨e.tracing, e.closed, rfl, rfl⟩

end Emulator

/-- To the machine a signal is what its operations are. -/
theorem Signal.machine_answer (random : Nat → Nat) (read : String → Except ReadError Bytes)
    (signal : Signal) (e : Emulator) :
    (signal.answer random e).emulator.machine =
      e.machine.after ⟨random, e.tracing, read⟩ (signal.operations e.machine) := by
  cases signal with
  | tick clock =>
    cases clock with
    | cpu => exact e.machine_tick random
    | timers => rfl
  | draw =>
    show e.draw.emulator.machine = _
    unfold Emulator.draw operations
    split <;> rfl
  | press key =>
    show (e.press key).emulator.machine = _
    unfold operations
    cases hkey : key.keypad? with
    | some k =>
      rw [Emulator.press_keypad hkey]
      simp only [hkey]
      rfl
    | none =>
      obtain ⟨tracing, closed, hstate, -⟩ := Emulator.press_other hkey e
      rw [hstate]
      simp only [hkey]
      rfl
  | release key =>
    show (e.release key).machine = _
    unfold Emulator.release operations
    cases hkey : key.keypad? with
    | some k =>
      simp only [hkey]
      rfl
    | none =>
      simp only [hkey]
      rfl
  | close => rfl

/-- Nothing but a tick of the processor's clock brings a fault about, and nothing opens a window. -/
theorem Signal.answer_other {signal : Signal} (hother : signal ≠ .tick .cpu) (random : Nat → Nat)
    (e : Emulator) :
    (signal.answer random e).emulator.fault = e.fault ∧
      (signal.answer random e).requests.any Request.opensWindow = false := by
  cases signal with
  | tick clock =>
    cases clock with
    | cpu => exact absurd rfl hother
    | timers => exact ⟨rfl, rfl⟩
  | draw =>
    show e.draw.emulator.fault = _ ∧ e.draw.requests.any _ = _
    unfold Emulator.draw
    split <;> exact ⟨rfl, rfl⟩
  | press key =>
    show (e.press key).emulator.fault = _ ∧ (e.press key).requests.any _ = _
    cases hkey : key.keypad? with
    | some k =>
      rw [Emulator.press_keypad hkey]
      exact ⟨rfl, rfl⟩
    | none =>
      obtain ⟨tracing, closed, hstate, hrequests⟩ := Emulator.press_other hkey e
      rw [hstate]
      exact ⟨rfl, hrequests⟩
  | release key =>
    show (e.release key).fault = _ ∧ _
    unfold Emulator.release
    split <;> exact ⟨rfl, rfl⟩
  | close => exact ⟨rfl, rfl⟩

namespace Callback

variable {c : Callback} {f : Fault}

theorem turn_tick (h : c.signal = .tick .cpu) : c.turn random = c.before.tick random := by
  rw [turn, h]
  rfl

theorem fault?_of_ne (h : c.signal ≠ .tick .cpu) : c.fault? random = none := by
  unfold fault?
  split
  next hcpu => exact absurd hcpu h
  next => rfl

/-- A callback that faults is a tick of the processor's clock. -/
theorem fault?_eq_some_iff :
    c.fault? random = some f ↔
      c.signal = .tick .cpu ∧
        (c.before.machine.step random c.before.tracing).result = .error f := by
  by_cases hcpu : c.signal = .tick .cpu
  · cases hr : (c.before.machine.step random c.before.tracing).result with
    | ok a => simp [fault?, hcpu, hr]
    | error f' => simp [fault?, hcpu, hr]
  · simp [fault?_of_ne hcpu, hcpu]

/-- The fault of an emulator is that of its last callback that has one, and no callback opens a
window. -/
theorem turn_fault (random : Nat → Nat) (c : Callback) :
    (c.turn random).emulator.fault = (c.fault? random).or c.before.fault ∧
      (c.turn random).requests.any Request.opensWindow = false := by
  by_cases hcpu : c.signal = .tick .cpu
  · rw [turn_tick hcpu]
    cases hr : (c.before.machine.step random c.before.tracing).result with
    | ok a =>
      have hnone : c.fault? random = none := by simp [fault?, hcpu, hr]
      rw [Emulator.tick_ok hr, hnone]
      exact ⟨rfl, rfl⟩
    | error f =>
      rw [Emulator.tick_error hr, fault?_eq_some_iff.2 ⟨hcpu, hr⟩]
      exact ⟨rfl, rfl⟩
  · rw [fault?_of_ne hcpu]
    exact Signal.answer_other hcpu random c.before

end Callback

end Chip8Vm
