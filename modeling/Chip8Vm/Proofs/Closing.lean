import Mathlib.Data.List.Basic
import Chip8Vm.Proofs.Callbacks

/-!
# How a window is closed

Three callbacks close the window: a step that faults, the host when it asks for it, and the escape
key. The first two stop both clocks before they ask the host to close the window. The escape key
asks for it and nothing else, so that both clocks stay scheduled behind a window that is closed
(`escape_leaves_clocks`).

`Ending` tells these apart, and the turns that leave the window open, by what they ask for and in
which order. A callback that leaves it open asks nothing of the clocks, so that a whole session ends
as its last callback does (`Plays.ending`).
-/

namespace Chip8Vm

/-- Both clocks are stopped before the window is asked to close. -/
def StopsBeforeClosing (requests : List Request) : Prop :=
  ∀ before later, requests = before ++ .closeWindow :: later →
    ∀ clock, .unschedule clock ∈ before

/-- Whether a request stops a clock or closes the window. -/
def Request.ends : Request → Bool
  | .unschedule _ | .closeWindow => true
  | _ => false

/-- How a turn leaves the window and the clocks, by whether the escape key has been pressed. -/
inductive Ending (e : Emulator) (escaped : Prop) : Turn → Prop
  | goesOn {t : Turn} (hescaped : ¬escaped) (hopen : t.emulator.closed = false)
    (hclocks : t.emulator.scheduled = e.scheduled)
    (hasked : t.requests.any Request.ends = false) : Ending e escaped t
  /-- The clocks are stopped, and then the window is closed. -/
  | stops {e' : Emulator} {asked between : List Request} {printed : List String}
    (hescaped : ¬escaped) (hclosed : e'.closed = true) (hclocks : e'.scheduled = [])
    (hasked : asked.any Request.ends = false) (hbetween : between.any Request.ends = false) :
    Ending e escaped
      ⟨e', asked ++ (Emulator.stopRequests ++ (between ++ [.closeWindow])), printed⟩
  /-- The window is closed, and the clocks go on. -/
  | escapes {e' : Emulator} {asked : List Request} {printed : List String}
    (hescaped : escaped) (hclosed : e'.closed = true) (hclocks : e'.scheduled = e.scheduled)
    (hasked : asked.any Request.ends = false) :
    Ending e escaped ⟨e', asked ++ [.closeWindow], printed⟩

variable {random : Nat → Nat} {e : Emulator} {escaped : Prop} {t : Turn}

theorem Request.notMem_of_any_ends {r : Request} {requests : List Request} (hr : r.ends = true)
    (h : requests.any ends = false) : r ∉ requests := by
  intro hmem
  have hany : requests.any ends = true := List.any_eq_true.2 ⟨r, hmem, hr⟩
  rw [h] at hany
  cases hany

/-! ## Which callbacks close the window -/

/-- A callback leaves the window open, or it is a fault or a close and stops the clocks first, or it
is the escape key. -/
theorem Callback.ending (random : Nat → Nat) {c : Callback} (hopen : c.before.closed = false) :
    Ending c.before (c.signal = .press .escape) (c.turn random) := by
  obtain ⟨e, signal⟩ := c
  cases signal with
  | tick clock =>
    cases clock with
    | cpu =>
      show Ending e _ (e.tick random)
      cases hr : (e.machine.step random e.tracing).result with
      | ok a =>
        rw [Emulator.tick_ok hr]
        exact .goesOn nofun hopen rfl rfl
      | error f =>
        rw [Emulator.tick_error hr]
        show Ending e _ ⟨_, [] ++ (Emulator.stopRequests ++ ([] ++ [.closeWindow])), _⟩
        exact .stops nofun rfl rfl rfl rfl
    | timers => exact .goesOn nofun hopen rfl rfl
  | draw =>
    show Ending e _ e.draw
    unfold Emulator.draw
    split <;> exact .goesOn nofun hopen rfl rfl
  | press key =>
    show Ending e _ (e.press key)
    cases key with
    | escape =>
      show Ending e _ ⟨_, [] ++ [.closeWindow], _⟩
      exact .escapes rfl rfl rfl rfl
    | f1 => exact .goesOn nofun hopen rfl rfl
    | char c =>
      cases hkey : (HostKey.char c).keypad? with
      | some k =>
        rw [Emulator.press_keypad hkey]
        exact .goesOn nofun hopen rfl rfl
      | none =>
        unfold Emulator.press
        simp only [hkey]
        exact .goesOn nofun hopen rfl rfl
    | other => exact .goesOn nofun hopen rfl rfl
  | release key =>
    show Ending e _ (e.release key).quiet
    unfold Emulator.release
    split <;> exact .goesOn nofun hopen rfl rfl
  | close =>
    show Ending e _ ⟨_, [] ++ (Emulator.stopRequests ++ ([.defaultClose] ++ [.closeWindow])), _⟩
    exact .stops nofun rfl rfl rfl rfl

namespace Ending

/-- A turn that leaves the window open asks nothing of the clocks. -/
theorem of_open (h : Ending e escaped t) (hopen : t.emulator.closed = false) :
    ¬escaped ∧ t.emulator.scheduled = e.scheduled ∧ t.requests.any Request.ends = false := by
  cases h with
  | goesOn hescaped _ hclocks hasked => exact ⟨hescaped, hclocks, hasked⟩
  | stops _ hclosed | escapes _ hclosed =>
    have hclash : true = false := hclosed.symm.trans hopen
    cases hclash

/-- What a turn that leaves the window open is followed by ends as it would have ended alone. -/
theorem after {first : Turn} {escaped' : Prop} (h : Ending first.emulator escaped' t)
    (hescaped : ¬escaped) (hclocks : first.emulator.scheduled = e.scheduled)
    (hfirst : first.requests.any Request.ends = false) :
    Ending e (escaped ∨ escaped') (first.andThen t) := by
  have hasked {asked : List Request} (h : asked.any Request.ends = false) :
      (first.requests ++ asked).any Request.ends = false := by
    rw [List.any_append, hfirst, h, Bool.or_false]
  cases h with
  | goesOn hescaped' hopen hclocks' hasked' =>
    exact .goesOn (not_or.2 ⟨hescaped, hescaped'⟩) hopen (hclocks'.trans hclocks) (hasked hasked')
  | stops hescaped' hclosed hclocks' hasked' hbetween =>
    rw [Turn.andThen, ← List.append_assoc first.requests]
    exact .stops (not_or.2 ⟨hescaped, hescaped'⟩) hclosed hclocks' (hasked hasked') hbetween
  | escapes hescaped' hclosed hclocks' hasked' =>
    rw [Turn.andThen, ← List.append_assoc first.requests]
    exact .escapes (.inr hescaped') hclosed (hclocks'.trans hclocks) (hasked hasked')

end Ending

/-- Callbacks end as the last one of them does. -/
theorem Plays.ending {l : List Callback} (h : Plays random e l t) (hopen : e.closed = false) :
    Ending e (∃ c ∈ l, c.signal = .press .escape) t := by
  induction h with
  | nil e => exact .goesOn (by simp) hopen rfl rfl
  | cons c _ hrest ih =>
    have hfirst := Callback.ending random hopen
    cases hclosed : (c.turn random).emulator.closed with
    | true =>
      -- nothing follows the callback that closes the window
      obtain rfl := hrest.eq_nil_of_closed hclosed
      rw [hrest.eq_quiet_of_nil, Turn.andThen_quiet]
      simpa using hfirst
    | false =>
      obtain ⟨hescaped, hclocks, hasked⟩ := hfirst.of_open hclosed
      have hwhole := (ih hclosed).after hescaped hclocks hasked
      simpa using hwhole

/-! ## What has been stopped by then -/

namespace Ending

/-- A session stops both clocks before it closes the window, unless the escape key is pressed. -/
theorem stopsBeforeClosing_iff (h : Ending e escaped t) {opening : List Request}
    (hopening : opening.any Request.ends = false) :
    StopsBeforeClosing (opening ++ t.requests) ↔ ¬escaped := by
  cases h with
  | goesOn hescaped _ _ hasked =>
    have hnone : .closeWindow ∉ opening ++ t.requests :=
      Request.notMem_of_any_ends rfl (by rw [List.any_append, hopening, hasked, Bool.or_false])
    refine iff_of_true (fun before later hsplit => absurd ?_ hnone) hescaped
    rw [hsplit]
    exact List.mem_append_right _ (List.mem_cons_self ..)
  | @stops e' asked between printed hescaped _ _ hasked hbetween =>
    refine iff_of_true (fun before later hsplit clock => ?_) hescaped
    have hstop : .unschedule clock ∈ Emulator.stopRequests := by cases clock <;> decide
    -- the window is asked to close once, and at the very end
    have honce : .closeWindow ∉ opening ++ asked ++ Emulator.stopRequests ++ between := by
      have hnotMem {requests : List Request} (h : requests.any Request.ends = false) :
          .closeWindow ∉ requests := Request.notMem_of_any_ends rfl h
      simp only [List.mem_append, not_or]
      exact ⟨⟨⟨hnotMem hopening, hnotMem hasked⟩, by decide⟩, hnotMem hbetween⟩
    have hend : (opening ++ asked ++ Emulator.stopRequests ++ between) ++ [.closeWindow] =
        before ++ .closeWindow :: later := by
      rw [← hsplit]
      simp only [List.append_assoc]
    obtain ⟨rfl, -⟩ := (List.append_cons_inj_of_notMem honce List.not_mem_nil).1 hend
    simp only [List.mem_append, hstop, or_true, true_or]
  | @escapes e' asked printed hescaped _ _ hasked =>
    refine iff_of_false (fun hstops => ?_) (not_not.2 hescaped)
    have hasks : .unschedule .cpu ∈ opening ++ asked :=
      hstops (opening ++ asked) [] (by rw [List.append_assoc]) .cpu
    have hnone : .unschedule .cpu ∉ opening ++ asked :=
      Request.notMem_of_any_ends rfl (by rw [List.any_append, hopening, hasked, Bool.or_false])
    exact hnone hasks

/-- The clocks of a window that is closed have been stopped, unless the escape key is pressed. -/
theorem scheduled_eq_nil_iff (h : Ending e escaped t) (hclocks : e.scheduled ≠ [])
    (hclosed : t.emulator.closed = true) : t.emulator.scheduled = [] ↔ ¬escaped := by
  cases h with
  | goesOn hescaped hopen =>
    have hclash : true = false := hclosed.symm.trans hopen
    cases hclash
  | stops hescaped _ hstopped => exact iff_of_true hstopped hescaped
  | escapes hescaped _ hkept => exact iff_of_false (hkept ▸ hclocks) (not_not.2 hescaped)

end Ending

namespace Emulator

/-- **Both clocks are stopped before the window closes, unless the escape key closes it.** Then, and
only then, does a session that has started with a machine as it is switched on and loaded ask for
the window to be closed without having stopped its clocks, which are left scheduled. -/
theorem clocks_stop_unless_escaped (random : Nat → Nat) (advanceIndex tracing : Bool) (rom : Bytes)
    (events : List Event) :
    let opened := start ((State.fresh advanceIndex).load rom).state tracing
    let whole := opened.emulator.session random events
    let escaped := ∃ c ∈ opened.emulator.callbacks random events, c.signal = .press .escape
    (StopsBeforeClosing (opened.requests ++ whole.requests) ↔ ¬escaped) ∧
      (whole.emulator.closed = true → (whole.emulator.scheduled = [] ↔ ¬escaped)) := by
  intro opened whole escaped
  have hending : Ending opened.emulator escaped whole :=
    (plays_callbacks random events opened.emulator).ending rfl
  exact ⟨hending.stopsBeforeClosing_iff rfl, hending.scheduled_eq_nil_iff (List.cons_ne_nil _ _)⟩

/-- A program that starts with a return faults at its first tick, which stops both clocks. -/
theorem clocks_stop_unless_escaped_fault :
    let opened := start ((State.fresh false).load [0x00, 0xEE]).state false
    let whole := opened.emulator.session id [.draw, .tick 3, .timer 1]
    whole.emulator.closed = true ∧ StopsBeforeClosing (opened.requests ++ whole.requests) ∧
      whole.emulator.scheduled = [] := by
  intro opened whole
  obtain ⟨hstops, hscheduled⟩ :=
    clocks_stop_unless_escaped id false false [0x00, 0xEE] [.draw, .tick 3, .timer 1]
  have hclosed : whole.emulator.closed = true := by decide +kernel
  have hescaped : ¬∃ c ∈ opened.emulator.callbacks id [.draw, .tick 3, .timer 1],
      c.signal = .press .escape := by
    decide +kernel
  exact ⟨hclosed, hstops.2 hescaped, (hscheduled hclosed).2 hescaped⟩

/-- The escape key closes the window of a running program and leaves both clocks scheduled. -/
theorem escape_leaves_clocks :
    let opened := start ((State.fresh false).load [0x12, 0x00]).state false
    let whole := opened.emulator.session id [.press .escape]
    whole.emulator.closed = true ∧ whole.emulator.scheduled = [.cpu, .timers] ∧
      ¬StopsBeforeClosing (opened.requests ++ whole.requests) := by
  intro opened whole
  refine ⟨rfl, rfl, fun hstops => ?_⟩
  have hasks : .unschedule .cpu ∈ opened.requests := hstops opened.requests [] rfl .cpu
  exact absurd hasks (by decide)

end Emulator

end Chip8Vm
