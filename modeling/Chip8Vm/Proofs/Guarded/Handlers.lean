import Chip8Vm.Display.Rendering
import Chip8Vm.Proofs.Callbacks
import Chip8Vm.Proofs.Guarded.Agreement
import Chip8Vm.Proofs.Screen

/-!
# Guarded handlers

The handlers of the emulator once more, call by call. A step may be refused by a guard, a key call
for the number it is given, and rendering for want of room, and what a handler does not deal with
itself escapes from it. The only thing that a handler deals with is a fault.

On a sound machine nothing escapes, whatever the signal, as long as there is room for the picture
that fills the window: the guarded handler is the handler (`answer_eq_ok`).
-/

namespace Chip8Vm

/-- What escapes from a handler. -/
inductive Escape
  | breach (b : Breach)
  | key (e : KeyError)
  | render (e : RenderError)
  /-- A picture of which it is not known what it holds. -/
  | unknownPicture
deriving DecidableEq, Repr

namespace Guarded

/-- One tick of the processor's clock. -/
def tick (random : Nat → Nat) (e : Emulator) : Except Escape Turn := do
  let r ← (step random e.tracing e.machine).mapError .breach
  match r.result with
  | .ok _ => return ⟨{ e with machine := r.state }, [], r.printed⟩
  | .error f =>
    return ⟨{ e with machine := r.state, fault := some f, scheduled := [], closed := true },
      Emulator.stopRequests ++ [.closeWindow],
      r.printed ++ ["Emulation error: " ++ f.message]⟩

/-- Shows the display: a changed one is rendered and handed over first. -/
def draw (room : Nat) (e : Emulator) : Except Escape Turn := do
  let showing : List Request := [.clearWindow, .showPicture 0 0]
  if e.machine.dirty then
    let rendering := e.machine.display.render room e.canvas Emulator.scale
    let some _ ← rendering.enlarged.mapError .render | throw .unknownPicture
    return ⟨{ e with canvas := rendering.painted, machine := e.machine.clearDirty },
      .setPicture (Emulator.windowSize.1 * Emulator.pixelBytes)
        (rendering.painted.enlarge Emulator.scale) :: showing, []⟩
  else return ⟨e, showing, []⟩

/-- A key of the keypad goes down. -/
def pressKey (k : Fin 16) (e : Emulator) : Except Escape Turn := do
  let held := e.machine.setKey k.val true
  let _ ← held.result.mapError .key
  let r := held.state.deliverKey k.val
  let delivered ← r.result.mapError .key
  return ⟨{ e with machine := r.state }, [],
    if delivered then
      Trace.log e.tracing
        ["Key " ++ Numeral.hex 1 k.val ++ " delivered to " ++ r.state.keyRegister.name]
    else []⟩

/-- A key of the keypad goes up. -/
def releaseKey (k : Fin 16) (e : Emulator) : Except Escape Turn := do
  let r := e.machine.setKey k.val false
  let _ ← r.result.mapError .key
  return Emulator.quiet { e with machine := r.state }

/-- The turn that answers a signal, unless something escapes. -/
def answer (room : Nat) (random : Nat → Nat) (signal : Signal) (e : Emulator) : Except Escape Turn :=
  match signal with
  | .tick .cpu => tick random e
  | .draw => draw room e
  | .press key =>
    match key.keypad? with
    | some k => pressKey k e
    | none => return e.press key
  | .release key =>
    match key.keypad? with
    | some k => releaseKey k e
    | none => return e.quiet
  -- neither the timers nor the request to close can be refused anything
  | signal => return signal.answer random e

variable {room : Nat} {e : Emulator}

theorem tick_eq_ok (h : e.machine.Sound) (random : Nat → Nat) :
    tick random e = .ok (e.tick random) := by
  unfold tick Emulator.tick
  rw [step_eq_ok h]
  obtain ⟨result, state, printed⟩ := e.machine.step random e.tracing
  cases result with
  | ok a => rfl
  | error f => rfl

theorem draw_eq_ok (hroom : Emulator.pictureBytes ≤ room) (e : Emulator) :
    draw room e = .ok e.draw := by
  obtain ⟨painted, hshown, -⟩ :=
    (depicts_paint e.canvas e.machine.display).rendered room hroom e.canvas
  cases hdirty : e.machine.dirty with
  | true =>
    simp only [draw, Emulator.draw, hdirty, hshown]
    rfl
  | false =>
    simp only [draw, Emulator.draw, hdirty]
    rfl

/-- Every key of the keypad has a number that is one. -/
theorem pressKey_eq_ok (k : Fin 16) (e : Emulator) : pressKey k e = .ok (e.pressKey k) := by
  have hheld : (e.machine.setKey k.val true).result = .ok () := by
    rw [State.setKey, key?_natCast]
    rfl
  unfold pressKey Emulator.pressKey
  simp only [hheld]
  cases hwait : (e.machine.setKey k.val true).state.waiting with
  | true =>
    simp only [State.deliverKey_key k hwait]
    rfl
  | false =>
    simp only [State.deliverKey_not_waiting _ hwait]
    rfl

theorem releaseKey_eq_ok {key : HostKey} {k : Fin 16} (hkey : key.keypad? = some k)
    (e : Emulator) : releaseKey k e = .ok (e.release key).quiet := by
  have hheld : (e.machine.setKey k.val false).result = .ok () := by
    rw [State.setKey, key?_natCast]
    rfl
  unfold releaseKey Emulator.release
  simp only [hheld, hkey]
  rfl

/-- **Nothing escapes from a handler** while the machine is sound, whichever key goes down or
up. -/
theorem answer_eq_ok (hroom : Emulator.pictureBytes ≤ room) (h : e.machine.Sound)
    (random : Nat → Nat) (signal : Signal) :
    answer room random signal e = .ok (signal.answer random e) := by
  cases signal with
  | tick clock =>
    cases clock with
    | cpu => exact tick_eq_ok h random
    | timers => rfl
  | draw => exact draw_eq_ok hroom e
  | press key =>
    show (match key.keypad? with | some k => pressKey k e | none => _) = .ok (e.press key)
    cases hkey : key.keypad? with
    | some k =>
      rw [Emulator.press_keypad hkey]
      exact pressKey_eq_ok k e
    | none => rfl
  | release key =>
    show (match key.keypad? with | some k => releaseKey k e | none => _) = .ok (e.release key).quiet
    cases hkey : key.keypad? with
    | some k => exact releaseKey_eq_ok hkey e
    | none =>
      rw [Emulator.release, hkey]
      rfl
  | close => rfl

end Guarded

end Chip8Vm
