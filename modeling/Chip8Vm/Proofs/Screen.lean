import Chip8Vm.Display.Rendering
import Chip8Vm.Keypad
import Chip8Vm.Program
import Chip8Vm.Proofs.Painting
import Chip8Vm.Proofs.Session

/-!
# What is on screen

The host shows the picture it was handed last, and the emulator hands one over only when the
display is marked as changed. `UpToDate` is what makes this enough: unless the mark is set, the
picture handed over last depicts the display. Drawing establishes it, since it hands over a new
picture and takes the mark away, and every other event keeps it, since what paints sets the mark.

The mark in turn is set from the start, and afterwards just when something has painted since the
last drawing (`dirty_after_iff`). `shows_display` puts both together: at every request to show the
picture the host has the display, and a drawing hands a picture over when it is the first or when
something has painted since the one before.
-/

namespace Chip8Vm

/-- A picture is the one that showing a display gives at the scale of the window, whatever picture
is painted over and wherever there is room for it; its pixels are opaque, and those of the display
upside down. -/
structure Depicts (p : Picture (32 * 10) (64 * 10)) (d : Display) : Prop where
  rendered : ∀ room, Emulator.pictureBytes ≤ room → ∀ under, ∃ painted,
    (d.render room under Emulator.scale).enlarged = .ok (some (.repeated 10 painted)) ∧
      painted.enlarge 10 = p
  pixel : ∀ (r : Fin (32 * 10)) (c : Fin (64 * 10)),
    let grey := d.pixel (Picture.origin r).rev (Picture.origin c) * 255 % 256
    p[r][c] = ⟨grey, grey, grey, 255⟩

/-- Room for the window's picture is all that it takes to show the display. -/
theorem enlargeable_display {room : Nat} (h : Emulator.pictureBytes ≤ room) :
    Picture.Enlargeable room 32 64 Emulator.scale := by
  have hrows : 32 * Emulator.scale * 64 * Picture.channels ≤ Emulator.pictureBytes := by decide
  exact .inr ⟨by decide, ⟨by decide, Nat.le_trans hrows h⟩, ⟨by decide, h⟩⟩

/-- Painting over any picture and enlarging depicts the display. -/
theorem depicts_paint (under : Picture 32 64) (d : Display) :
    Depicts ((under.paint d).enlarge 10) d where
  rendered room hroom under' := by
    refine ⟨under'.paint d, Picture.enlargeBy_eq_ok (enlargeable_display hroom) _, ?_⟩
    rw [Picture.paint_eq_paint under' under]
  pixel := Picture.getElem_enlarge_paint 10 under d

/-- The content that a request gives to the picture, in rows of so many bytes. -/
def Request.content? : Request → Option (Nat × Picture (32 * 10) (64 * 10))
  | .setPicture pitch picture => some (pitch, picture)
  | _ => none

/-- Whether a request is about what the picture holds or whether it is shown. -/
def Request.concernsPicture : Request → Bool
  | .setPicture .. => true
  | .showPicture .. => true
  | _ => false

/-- Requests that are not about the picture hand nothing over. -/
theorem filterMap_content? {requests : List Request}
    (h : requests.any Request.concernsPicture = false) :
    requests.filterMap Request.content? = [] := by
  refine List.filterMap_eq_nil_iff.2 fun r hr => ?_
  have hr' : r.concernsPicture = false := by simpa using List.any_eq_false.1 h r hr
  cases r with
  | setPicture pitch picture => cases hr'
  | _ => rfl

/-- The content that the picture was given last. -/
def lastContent (requests : List Request) : Option (Nat × Picture (32 * 10) (64 * 10)) :=
  (requests.filterMap Request.content?).getLast?

/-- Requests that hand nothing over leave the picture as it is. -/
theorem lastContent_append (requests : List Request) {later : List Request}
    (h : later.filterMap Request.content? = []) :
    lastContent (requests ++ later) = lastContent requests := by
  rw [lastContent, List.filterMap_append, h, List.append_nil, lastContent]

theorem lastContent_concat (requests : List Request) (pitch : Nat)
    (picture : Picture (32 * 10) (64 * 10)) :
    lastContent (requests ++ [.setPicture pitch picture]) = some (pitch, picture) := by
  rw [lastContent, List.filterMap_append]
  exact List.getLast?_concat

namespace Emulator

variable {random : Nat → Nat} {e : Emulator}

/-! ## Events that do not draw -/

/-- Ticks of the processor paint if one of the instructions does that they execute. -/
theorem painted_ticks (random : Nat → Nat) (n : Nat) (e : Emulator) :
    Painted (e.tickInstructions random n) e.machine (e.ticks random n).emulator.machine := by
  induction n generalizing e with
  | zero => exact .of_eq rfl rfl
  | succ n ih =>
    unfold tickInstructions ticks
    by_cases h : Clock.cpu ∈ e.scheduled
    · have hstep := State.painted_step random e.tracing e.machine
      rw [← machine_tick] at hstep
      rw [if_pos h, if_pos h]
      exact hstep.trans (ih _)
    · rw [if_neg h, if_neg h]
      exact .of_eq rfl rfl

theorem painted_timerTicks (n : Nat) (e : Emulator) :
    Painted [] e.machine (e.timerTicks n).machine := by
  induction n generalizing e with
  | zero => exact .of_eq rfl rfl
  | succ n ih =>
    unfold timerTicks
    split
    · have hrest := ih { e with machine := e.machine.tickTimers }
      exact ⟨hrest.dirty, hrest.display⟩
    · exact .of_eq rfl rfl

theorem painted_pressKey (k : Fin 16) (e : Emulator) :
    Painted [] e.machine (e.pressKey k).emulator.machine :=
  (State.painted_setKey k.val true e.machine).trans (State.painted_deliverKey k.val _)

/-- What a turn that does not draw paints is what its instructions paint. -/
theorem painted_handle (random : Nat → Nat) (e : Emulator) {event : Event} (hdraw : event ≠ .draw) :
    Painted (e.instructionsOf random event) e.machine
      (e.handle random event).emulator.machine := by
  cases event with
  | tick times => exact painted_ticks random times e
  | timer times => exact painted_timerTicks times e
  | draw => exact absurd rfl hdraw
  | press key =>
    show Painted [] e.machine (e.press key).emulator.machine
    unfold press
    split
    · exact .of_eq rfl rfl
    · exact .of_eq rfl rfl
    · split
      next k hk => exact painted_pressKey k e
      next => exact .of_eq rfl rfl
  | release key =>
    show Painted [] e.machine (e.release key).machine
    unfold release
    split
    next k hk => exact State.painted_setKey k.val false e.machine
    next => exact .of_eq rfl rfl
  | close => exact .of_eq rfl rfl

theorem concernsPicture_tick (random : Nat → Nat) (e : Emulator) :
    (e.tick random).requests.any Request.concernsPicture = false := by
  unfold tick
  dsimp only
  split <;> rfl

theorem concernsPicture_ticks (random : Nat → Nat) (n : Nat) (e : Emulator) :
    (e.ticks random n).requests.any Request.concernsPicture = false := by
  induction n generalizing e with
  | zero => rfl
  | succ n ih =>
    unfold ticks
    split
    · rw [List.any_append, concernsPicture_tick, ih, Bool.or_false]
    · rfl

/-- Only drawing asks for anything about the picture. -/
theorem concernsPicture_handle {event : Event} (hdraw : event ≠ .draw) :
    (e.handle random event).requests.any Request.concernsPicture = false := by
  cases event with
  | tick times => exact concernsPicture_ticks random times e
  | timer times => rfl
  | draw => exact absurd rfl hdraw
  | press key =>
    show (e.press key).requests.any Request.concernsPicture = false
    unfold press
    split
    · rfl
    · rfl
    · split <;> rfl
  | release key => rfl
  | close => rfl

/-! ## Drawing -/

/-- Drawing hands a picture over if the mark is set, and shows the picture either way. -/
theorem requests_draw (e : Emulator) :
    e.draw.requests =
      (if e.machine.dirty then [.setPicture 2560 ((e.canvas.paint e.machine.display).enlarge 10)]
      else []) ++ [.clearWindow] ++ [.showPicture 0 0] := by
  unfold draw
  split
  · rfl
  · rfl

/-- Drawing hands a picture over just when the mark is set. -/
theorem setPicture_mem_draw_iff (e : Emulator) :
    (∃ pitch picture, .setPicture pitch picture ∈ e.draw.requests) ↔ e.machine.dirty = true := by
  rw [requests_draw]
  cases e.machine.dirty <;> simp

theorem dirty_draw (e : Emulator) : e.draw.emulator.machine.dirty = false := by
  unfold draw
  split
  next => rfl
  next hclean => simpa using hclean

theorem display_draw (e : Emulator) : e.draw.emulator.machine.display = e.machine.display := by
  unfold draw
  split <;> rfl

/-- Nothing is shown before the last of some requests if only that one shows something. -/
theorem eq_of_append_showPicture {l before later : List Request} {x y x' y' : Nat}
    (hl : ∀ x y, Request.showPicture x y ∉ l)
    (h : l ++ [.showPicture x' y'] = before ++ .showPicture x y :: later) : before = l := by
  induction l generalizing before with
  | nil =>
    cases before with
    | nil => rfl
    | cons r before => simp at h
  | cons a l ih =>
    cases before with
    | nil =>
      have ha : a = .showPicture x y := (List.cons.inj h).1
      exact absurd (ha ▸ List.mem_cons_self ..) (hl x y)
    | cons r before =>
      obtain ⟨rfl, hrest⟩ := List.cons.inj h
      rw [ih (fun x y hmem => hl x y (List.mem_cons_of_mem _ hmem)) hrest]

/-- Unless the display is marked as changed, the content that the picture was given last depicts
it. -/
def UpToDate (asked : List Request) (e : Emulator) : Prop :=
  e.machine.dirty = false →
    ∃ picture, lastContent asked = some (2560, picture) ∧ Depicts picture e.machine.display

namespace UpToDate

variable {asked : List Request} (h : UpToDate asked e)

include h

/-- What drawing hands over, or what the host has already, depicts the display. -/
theorem handedOver :
    ∃ picture,
      lastContent (asked ++ if e.machine.dirty then
        [.setPicture 2560 ((e.canvas.paint e.machine.display).enlarge 10)] else []) =
          some (2560, picture) ∧
        Depicts picture e.machine.display := by
  cases hd : e.machine.dirty with
  | true =>
    rw [if_pos rfl, lastContent_concat]
    exact ⟨_, rfl, depicts_paint e.canvas e.machine.display⟩
  | false =>
    rw [if_neg Bool.false_ne_true, List.append_nil]
    exact h hd

/-- When drawing shows the picture, it depicts the display. -/
theorem shows_draw {before later : List Request} {x y : Nat}
    (hsplit : e.draw.requests = before ++ .showPicture x y :: later) :
    ∃ picture, lastContent (asked ++ before) = some (2560, picture) ∧
      Depicts picture e.machine.display := by
  rw [requests_draw] at hsplit
  have hquiet : ∀ x y, Request.showPicture x y ∉
      (if e.machine.dirty then
        [.setPicture 2560 ((e.canvas.paint e.machine.display).enlarge 10)] else []) ++
          [.clearWindow] := by
    intro x y
    split <;> simp
  rw [eq_of_append_showPicture hquiet hsplit, ← List.append_assoc, lastContent_append _ rfl]
  exact h.handedOver

/-- No event outdates the picture without setting the mark. -/
theorem handle (random : Nat → Nat) (event : Event) :
    UpToDate (asked ++ (e.handle random event).requests) (e.handle random event).emulator := by
  by_cases hdraw : event = .draw
  · subst hdraw
    intro _
    show ∃ picture, lastContent (asked ++ e.draw.requests) = some (2560, picture) ∧
      Depicts picture e.draw.emulator.machine.display
    rw [requests_draw, display_draw, List.append_assoc, ← List.append_assoc,
      lastContent_append _ rfl]
    exact h.handedOver
  · -- a mark that is not set now was not set before, and nothing has painted
    intro hclean
    have hpainted := painted_handle random e hdraw
    rw [hpainted.dirty, Bool.or_eq_false_iff] at hclean
    rw [lastContent_append _ (filterMap_content? (concernsPicture_handle hdraw)),
      hpainted.display hclean.2]
    exact h hclean.1

/-- Along a session the picture stays up to date. -/
theorem after (events : List Event) :
    UpToDate (asked ++ (e.turns random events).flatMap (·.requests)) (e.after random events) := by
  induction events generalizing e asked with
  | nil => simpa [turns, after_nil] using h
  | cons event events ih =>
    cases hclosed : e.closed with
    | true =>
      rw [after_closed _ hclosed, turns_closed _ _ hclosed]
      simpa using h
    | false =>
      have hnext := ih (h.handle random event)
      rw [after_cons _ _ hclosed]
      simpa only [turns, hclosed, Bool.false_eq_true, if_false, List.flatMap_cons,
        List.append_assoc] using hnext

end UpToDate

/-! ## The mark -/

/-- What events without a drawing paint is what their instructions paint. -/
theorem painted_after {events : List Event} (hdraw : .draw ∉ events) :
    Painted (e.instructions random events) e.machine (e.after random events).machine := by
  induction events generalizing e with
  | nil => exact .of_eq rfl rfl
  | cons event events ih =>
    cases hclosed : e.closed with
    | true =>
      rw [instructions_closed _ hclosed, after_closed _ hclosed]
      exact .of_eq rfl rfl
    | false =>
      have hfirst : event ≠ .draw := fun heq => hdraw (heq ▸ List.mem_cons_self ..)
      have hrest : .draw ∉ events := fun hmem => hdraw (List.mem_cons_of_mem _ hmem)
      rw [instructions_cons _ _ hclosed, after_cons _ _ hclosed]
      exact (painted_handle random e hfirst).trans (ih hrest)

/-- After a drawing the mark says whether something has painted since. -/
theorem dirty_after_draw {shown since : List Event} (hdraw : .draw ∉ since)
    (hopen : (e.after random (shown ++ .draw :: since)).closed = false) :
    (e.after random (shown ++ .draw :: since)).machine.dirty =
      Instruction.anyPaints ((e.after random (shown ++ [.draw])).instructions random since) := by
  have hopen' : (e.after random shown).closed = false := by
    rw [after_append] at hopen
    exact open_of_open_after hopen
  have hshown : e.after random (shown ++ [.draw]) = (e.after random shown).draw.emulator := by
    rw [after_append, after_cons _ _ hopen']
    rfl
  have hsplit : e.after random (shown ++ .draw :: since) =
      (e.after random (shown ++ [.draw])).after random since := by
    rw [← after_append, List.append_assoc, List.singleton_append]
  rw [hsplit, (painted_after hdraw).dirty, hshown, dirty_draw, Bool.false_or]

/-- From the start on, the mark is set just when nothing has been drawn or something has painted
since the last drawing. -/
theorem dirty_after_iff {events : List Event} (hdirty : e.machine.dirty = true)
    (hopen : (e.after random events).closed = false) :
    (e.after random events).machine.dirty = true ↔
      .draw ∉ events ∨ ∃ shown since, events = shown ++ .draw :: since ∧ .draw ∉ since ∧
        Instruction.anyPaints ((e.after random (shown ++ [.draw])).instructions random since) =
          true := by
  constructor
  · intro hmark
    by_cases hdraw : .draw ∈ events
    · -- the last drawing is the first one of the events read backwards
      obtain ⟨since, shown, hsplit, hsince⟩ :=
        List.eq_append_cons_of_mem (List.mem_reverse.2 hdraw)
      have hevents : events = shown.reverse ++ .draw :: since.reverse := by
        simpa using congrArg List.reverse hsplit
      have hsince' : .draw ∉ since.reverse := by simpa using hsince
      subst hevents
      rw [dirty_after_draw hsince' hopen] at hmark
      exact .inr ⟨_, _, rfl, hsince', hmark⟩
    · exact .inl hdraw
  · rintro (hdraw | ⟨shown, since, rfl, hsince, hpaint⟩)
    · rw [(painted_after hdraw).dirty, hdirty, Bool.true_or]
    · rw [dirty_after_draw hsince hopen, hpaint]

/-- A turn hands a picture over just when it draws a display that is marked. -/
theorem setPicture_mem_handle_iff {event : Event} :
    (∃ pitch picture, .setPicture pitch picture ∈ (e.handle random event).requests) ↔
      event = .draw ∧ e.machine.dirty = true := by
  by_cases hdraw : event = .draw
  · subst hdraw
    simp only [true_and]
    exact setPicture_mem_draw_iff e
  · constructor
    · rintro ⟨pitch, picture, hmem⟩
      have hfalse := List.any_eq_false.1 (concernsPicture_handle hdraw) _ hmem
      exact absurd rfl hfalse
    · exact fun hboth => absurd hboth.1 hdraw

/-- A turn that shows the picture draws. -/
theorem eq_draw_of_showPicture {event : Event} {before later : List Request} {x y : Nat}
    (hsplit : (e.handle random event).requests = before ++ .showPicture x y :: later) :
    event = .draw := by
  apply Classical.byContradiction
  intro hdraw
  have hnone : (e.handle random event).requests.any Request.concernsPicture = false :=
    concernsPicture_handle hdraw
  simp [hsplit, Request.concernsPicture] at hnone

/-- A program that loads, or does not, leaves the mark of a new machine. -/
theorem dirty_load_fresh (advanceIndex : Bool) (rom : Bytes) :
    ((State.fresh advanceIndex).load rom).state.dirty = true := by
  obtain ⟨memory, hstate⟩ := State.state_load rom (State.fresh advanceIndex)
  rw [hstate]
  rfl

/-- **What is on screen is the display.** In a session with any program, whatever has happened
before: whenever an event that is answered asks to show the picture, the content given last is
the display as it stands then, in rows of 2560 bytes; and new content is given just when the event
is a drawing that is the first one, or before which the display has been cleared or drawn on since
the drawing before. -/
theorem shows_display (random : Nat → Nat) (tracing advanceIndex : Bool) (rom : Bytes)
    (earlier : List Event) (event : Event) :
    let opened := start ((State.fresh advanceIndex).load rom).state tracing
    let past := opened.emulator.turns random earlier
    let now := opened.emulator.after random earlier
    let turn := now.handle random event
    now.closed = false →
      opened.emulator.turns random (earlier ++ [event]) = past ++ [turn] ∧
      (∀ before x y later, turn.requests = before ++ .showPicture x y :: later →
        turn.emulator.machine.display = now.machine.display ∧
        ∃ picture,
          lastContent (opened.requests ++ past.flatMap (·.requests) ++ before) =
            some (2560, picture) ∧
          Depicts picture now.machine.display) ∧
      ((∃ pitch picture, .setPicture pitch picture ∈ turn.requests) ↔
        event = .draw ∧
          (.draw ∉ earlier ∨ ∃ shown since, earlier = shown ++ .draw :: since ∧ .draw ∉ since ∧
            ∃ i ∈ (opened.emulator.after random (shown ++ [.draw])).instructions random since,
              i.op = .clearDisplay ∨ i.op = .draw)) := by
  intro opened past now turn hopen
  have hdirty : opened.emulator.machine.dirty = true := dirty_load_fresh advanceIndex rom
  -- no picture has been handed over yet, but the mark asks for one
  have hstart : UpToDate opened.requests opened.emulator := fun hclean => by
    rw [hdirty] at hclean
    cases hclean
  refine ⟨turns_concat earlier event hopen, ?_, ?_⟩
  · intro before x y later hsplit
    obtain rfl := eq_draw_of_showPicture hsplit
    exact ⟨display_draw now, (hstart.after earlier).shows_draw hsplit⟩
  · have hopen' : (opened.emulator.after random earlier).closed = false := hopen
    have hmark := dirty_after_iff hdirty hopen'
    simp only [Instruction.anyPaints_iff] at hmark
    rw [← hmark]
    exact setPicture_mem_handle_iff

/-- A program that clears the display: the second drawing hands over a new picture. -/
theorem shows_display_cleared :
    let opened := start ((State.fresh false).load [0x00, 0xE0]).state false
    let now := opened.emulator.after (fun _ => 0) [.draw, .tick 1]
    now.closed = false ∧
      ∃ pitch picture, .setPicture pitch picture ∈ (now.handle (fun _ => 0) .draw).requests := by
  intro opened now
  have hopen : now.closed = false := by decide +kernel
  have hall := shows_display (fun _ => 0) false false [0x00, 0xE0] [.draw, .tick 1] .draw hopen
  refine ⟨hopen, hall.2.2.2 ⟨rfl, .inr ⟨[], [.tick 1], rfl, by decide, ?_⟩⟩⟩
  have hexec : ⟨.clearDisplay, 0x00E0⟩ ∈
      (opened.emulator.after (fun _ => 0) ([] ++ [.draw])).instructions (fun _ => 0) [.tick 1] := by
    decide +kernel
  exact ⟨_, hexec, .inl rfl⟩

end Emulator

end Chip8Vm
