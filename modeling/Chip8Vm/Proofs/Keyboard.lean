import Chip8Vm.Proofs.Callbacks
import Chip8Vm.Proofs.Footprint
import Chip8Vm.Proofs.KeyWait

/-!
# The keyboard of a session

A key that goes down on the host's keyboard reaches the machine in two ways: its number is held from
then on, until the key goes up, and it is delivered, once, to a wait if there is one. The sixteen
numbers belong to sixteen different keys of the host (`HostKey.exists_keypad`), and of the ways in
which a callback acts on the machine (`Callback.acts`) none but the strokes of these keys touches
what is held. So a number is held as the last stroke of its key has left it (`Callback.held_turn`,
`Plays.last_setting`).

A machine that has come to await a key stays stalled through every callback that presses no key of
the keypad, whatever is held already (`Callback.stalled_turn`), and the first callback that presses
one fills the register and lets the machine go on (`Plays.awaitsKey`). Nothing else starts a wait or
ends one (`Callback.waiting_turn`).
-/

namespace Chip8Vm

variable {random : Nat → Nat} {tracing : Bool} {key : HostKey} {k : Fin 16}

/-! ## The keys of the host -/

namespace HostKey

/-- A number that a key stands for stands next to its character. -/
theorem mem_layout_of_lookup {c : Char} (h : layout.lookup c = some k) : (c, k) ∈ layout := by
  obtain ⟨before, behind, hsplit, -⟩ := List.lookup_eq_some_iff.1 h
  rw [hsplit]
  exact List.mem_append_right _ (List.mem_cons_self ..)

/-- Each number of the keypad belongs to one key. -/
theorem exists_keypad (k : Fin 16) :
    ∃ key : HostKey, ∀ key' : HostKey, key'.keypad? = some k ↔ key' = key := by
  have hsome : ∀ k : Fin 16, ∃ entry ∈ layout, layout.lookup entry.1 = some k := by decide
  have hone : ∀ entry ∈ layout, ∀ entry' ∈ layout, entry.2 = entry'.2 → entry.1 = entry'.1 := by
    decide
  obtain ⟨entry, -, hc⟩ := hsome k
  refine ⟨.char entry.1, fun key' => ⟨fun hkey => ?_, fun hkey => hkey ▸ hc⟩⟩
  cases key' with
  | char c' =>
    have hc' : layout.lookup c' = some k := hkey
    have hmem := mem_layout_of_lookup hc
    exact congrArg char (hone (c', k) (mem_layout_of_lookup hc') (entry.1, k) hmem rfl)
  | _ => cases hkey

end HostKey

/-! ## What a callback does to the machine -/

/-- Whether a signal says of a key that it has gone down or up. -/
def Signal.stroke? (key : HostKey) : Signal → Option Bool
  | .press key' => if key' = key then some true else none
  | .release key' => if key' = key then some false else none
  | _ => none

/-- The number of the keypad whose key a signal presses. -/
def Signal.keyDown? : Signal → Option (Fin 16)
  | .press key => key.keypad?
  | _ => none

theorem State.setKey_key (k : Fin 16) (held : Bool) (s : State) :
    s.setKey k.val held = .ok () { s with keys := s.keys.set k.val held k.isLt } := by
  unfold setKey
  rw [key?_natCast]

namespace Emulator

variable {e : Emulator}

/-- A waiting machine takes the key that goes down for the register that waits. -/
theorem pressKey_waiting (h : e.machine.waiting = true) (k : Fin 16) :
    (e.pressKey k).emulator.machine =
      { e.machine.setReg e.machine.keyRegister k.val with
        keys := e.machine.keys.set k.val true k.isLt, waiting := false } := by
  have hwait (keys : Vector Bool 16) : { e.machine with keys }.waiting = true := h
  simp only [pressKey, State.setKey_key, Reply.ok, State.deliverKey_key k (hwait _)]
  rfl

/-- Where nothing waits a key that goes down is only held. -/
theorem pressKey_idle (h : e.machine.waiting = false) (k : Fin 16) :
    e.pressKey k =
      quiet { e with
        machine := { e.machine with keys := e.machine.keys.set k.val true k.isLt } } := by
  have hidle (keys : Vector Bool 16) : { e.machine with keys }.waiting = false := h
  simp only [pressKey, State.setKey_key, Reply.ok, State.deliverKey_not_waiting _ (hidle _)]
  rfl

theorem keys_pressKey (k : Fin 16) (e : Emulator) :
    (e.pressKey k).emulator.machine.keys = e.machine.keys.set k.val true k.isLt := by
  cases hwait : e.machine.waiting with
  | true => rw [pressKey_waiting hwait]
  | false => rw [pressKey_idle hwait, quiet]

/-- Nothing waits when a key has gone down. -/
theorem waiting_pressKey (k : Fin 16) (e : Emulator) :
    (e.pressKey k).emulator.machine.waiting = false := by
  cases hwait : e.machine.waiting with
  | true => rw [pressKey_waiting hwait]
  | false =>
    rw [pressKey_idle hwait]
    exact hwait

end Emulator

namespace Callback

variable {c : Callback}

/-- The instruction that a callback executes, if it executes one. -/
def executed (random : Nat → Nat) (c : Callback) : List Instruction :=
  match c.signal with
  | .tick .cpu => (c.before.machine.step random c.before.tracing).executed
  | _ => []

/-- A callback that executes an instruction is a tick of the processor's clock. -/
theorem result_of_executed {i : Instruction} (h : c.executed random = [i]) :
    c.signal = .tick .cpu ∧
      (c.before.machine.step random c.before.tracing).result = .ok (some i) := by
  unfold executed at h
  split at h
  next hcpu => exact ⟨hcpu, Reply.result_of_executed h⟩
  next => cases h

/-- What a callback can make of the machine that it finds. -/
inductive Acts (random : Nat → Nat) (c : Callback) : State → Prop
  | step (hcpu : c.signal = .tick .cpu) :
    Acts random c (c.before.machine.step random c.before.tracing).state
  | down {key : HostKey} {k : Fin 16} (hsignal : c.signal = .press key)
    (hkey : key.keypad? = some k) : Acts random c (c.before.pressKey k).emulator.machine
  | up {key : HostKey} {k : Fin 16} (hsignal : c.signal = .release key)
    (hkey : key.keypad? = some k) :
    Acts random c { c.before.machine with keys := c.before.machine.keys.set k.val false k.isLt }
  /-- A tick of the timers, a drawing, a close, or a stroke of a key that is not of the keypad. -/
  | rest {delay sound : Nat} {dirty : Bool} (hcpu : c.signal ≠ .tick .cpu)
    (hkeys : ∀ key, c.signal = .press key ∨ c.signal = .release key → key.keypad? = none) :
    Acts random c { c.before.machine with delay, sound, dirty }

/-- A callback does one of these to the machine. -/
theorem acts (random : Nat → Nat) (c : Callback) :
    c.Acts random (c.turn random).emulator.machine := by
  obtain ⟨e, signal⟩ := c
  cases signal with
  | tick clock =>
    cases clock with
    | cpu =>
      show Acts random _ (e.tick random).emulator.machine
      rw [e.machine_tick]
      exact .step rfl
    | timers => exact .rest nofun (by simp)
  | draw =>
    show Acts random _ e.draw.emulator.machine
    unfold Emulator.draw
    split
    · exact .rest nofun (by simp)
    · exact .rest nofun (by simp)
  | press key =>
    show Acts random _ (e.press key).emulator.machine
    cases hkey : key.keypad? with
    | some k =>
      rw [Emulator.press_keypad hkey]
      exact .down rfl hkey
    | none =>
      obtain ⟨tracing, closed, hstate, -⟩ := Emulator.press_other hkey e
      rw [hstate]
      exact .rest nofun (by simpa using hkey)
  | release key =>
    show Acts random _ (e.release key).machine
    unfold Emulator.release
    cases hkey : key.keypad? with
    | some k =>
      simp only [State.setKey_key]
      exact .up rfl hkey
    | none => exact .rest nofun (by simpa using hkey)
  | close => exact .rest nofun (by simp)

end Callback

/-! ## Which keys are held -/

/-- Whether some callbacks leave a key down that was up before. -/
def HostKey.heldAfter (key : HostKey) (past : List Callback) : Bool :=
  (past.filterMap (·.signal.stroke? key)).getLast?.getD false

theorem State.keys_step (random : Nat → Nat) (tracing : Bool) (s : State) :
    (s.step random tracing).state.keys = s.keys := by
  rcases step_executed random tracing s with ⟨i, hres, -⟩ | ⟨-, hsame⟩
  · exact (step_footprint hres).keys
  · rw [hsame]

/-- What a stroke of a key of the host does to a number that belongs to one key. -/
theorem HostKey.get_set_stroke (hkey : ∀ key' : HostKey, key'.keypad? = some k ↔ key' = key)
    {key' : HostKey} {k' : Fin 16} (hkey' : key'.keypad? = some k') (held : Bool)
    (keys : Vector Bool 16) :
    (keys.set k'.val held k'.isLt).get k =
      (if key' = key then some held else none).getD (keys.get k) := by
  by_cases hsame : key' = key
  · have hk : k' = k := Option.some_inj.1 (hkey'.symm.trans ((hkey key').2 hsame))
    rw [if_pos hsame, hk]
    exact Vector.getElem_set_self k.isLt
  · have hk : k'.val ≠ k.val := fun hval =>
      hsame ((hkey key').1 (hkey'.trans (congrArg some (Fin.ext hval))))
    rw [if_neg hsame]
    exact Vector.getElem_set_ne k'.isLt k.isLt hk

/-- A callback leaves a number held or not as a stroke of its key says, and otherwise as it was. -/
theorem Callback.held_turn (hkey : ∀ key' : HostKey, key'.keypad? = some k ↔ key' = key)
    (random : Nat → Nat) (c : Callback) :
    (c.turn random).emulator.machine.keys.get k =
      (c.signal.stroke? key).getD (c.before.machine.keys.get k) := by
  have hacts := c.acts random
  generalize (c.turn random).emulator.machine = s at hacts ⊢
  cases hacts with
  | step hcpu =>
    rw [State.keys_step, hcpu]
    rfl
  | down hsignal hkey' =>
    rw [Emulator.keys_pressKey, hsignal]
    exact HostKey.get_set_stroke hkey hkey' true _
  | up hsignal hkey' =>
    rw [hsignal]
    exact HostKey.get_set_stroke hkey hkey' false _
  | rest _ hkeys =>
    have hnone : c.signal.stroke? key = none := by
      have hmine : key.keypad? ≠ none := by simp [(hkey key).2 rfl]
      unfold Signal.stroke?
      split
      next key' hsignal =>
        refine if_neg fun hsame => hmine ?_
        exact hsame ▸ hkeys key' (.inl hsignal)
      next key' hsignal =>
        refine if_neg fun hsame => hmine ?_
        exact hsame ▸ hkeys key' (.inr hsignal)
      next => rfl
    rw [hnone]
    rfl

/-- Of a value that each callback sets or leaves alone the last setting stays. -/
theorem Plays.last_setting {α : Type} (value : Emulator → α) {setting? : Callback → Option α}
    {e : Emulator} {l : List Callback} {t : Turn} (h : Plays random e l t)
    (hturn : ∀ c ∈ l, value (c.turn random).emulator = (setting? c).getD (value c.before)) :
    value t.emulator = (l.filterMap setting?).getLast?.getD (value e) := by
  induction h with
  | nil e => rfl
  | cons c _ _ ih =>
    have hfirst := hturn c (List.mem_cons_self ..)
    have hrest := ih fun c' hc' => hturn c' (List.mem_cons_of_mem _ hc')
    rw [Turn.andThen, hrest, hfirst, last_setting_cons]

/-! ## Who ends a wait -/

/-- An instruction that awaits a key starts a wait, and no step ends one. -/
theorem State.waiting_step (random : Nat → Nat) (tracing : Bool) (s : State) :
    (s.step random tracing).state.waiting =
      ((s.step random tracing).executed.any (·.op = .awaitKey) || s.waiting) := by
  rcases step_executed random tracing s with ⟨i, hres, hi⟩ | ⟨hi, hsame⟩
  · by_cases hop : i.op = .awaitKey
    · rw [state_step_awaitKey hres hop, hi]
      simp [stalled, hop]
    · rw [(step_footprint hres).waiting hop, hi]
      simp [hop]
  · rw [hi, hsame]
    rfl

namespace Callback

variable {c : Callback}

theorem turn_keyDown (h : c.signal.keyDown? = some k) : c.turn random = c.before.pressKey k := by
  obtain ⟨e, signal⟩ := c
  cases signal with
  | press key => exact Emulator.press_keypad h e
  | _ => cases h

/-- The instruction that awaits a key leaves the machine stalled. -/
theorem turn_awaitKey {i : Instruction} (h : c.executed random = [i]) (hop : i.op = .awaitKey) :
    (c.turn random).emulator.machine = State.stalled i.x c.before.machine c.before.machine := by
  obtain ⟨hcpu, hres⟩ := result_of_executed h
  rw [turn_tick hcpu, Emulator.machine_tick, State.state_step_awaitKey hres hop]

/-- A stalled machine stays stalled until a key of the keypad is pressed. -/
theorem stalled_turn {s : State} {x : Reg} (h : c.signal.keyDown? = none)
    (hs : c.before.machine = State.stalled x s c.before.machine) :
    (c.turn random).emulator.machine = State.stalled x s (c.turn random).emulator.machine := by
  have hacts := c.acts random
  generalize (c.turn random).emulator.machine = t at hacts ⊢
  cases hacts with
  | step hcpu =>
    have hwait : c.before.machine.waiting = true := congrArg State.waiting hs
    rw [State.step_waiting hwait]
    exact hs
  | down hsignal hkey =>
    rw [hsignal] at h
    cases hkey.symm.trans h
  | up hsignal hkey =>
    rw [hs]
    rfl
  | rest hcpu hkeys =>
    rw [hs]
    rfl

/-- Whether a callback starts a wait or leaves no wait behind, if it does either. -/
def wait? (random : Nat → Nat) (c : Callback) : Option Bool :=
  if c.signal.keyDown?.isSome then some false
  else if (c.executed random).any (·.op = .awaitKey) then some true
  else none

/-- Whether some callbacks leave a wait behind where there was none before. -/
def awaitsAfter (random : Nat → Nat) (past : List Callback) : Bool :=
  (past.filterMap (·.wait? random)).getLast?.getD false

/-- A wait is started by an instruction that awaits a key and ended by a key of the keypad that goes
down, and by nothing else. -/
theorem waiting_turn (random : Nat → Nat) (c : Callback) :
    (c.turn random).emulator.machine.waiting =
      (c.wait? random).getD c.before.machine.waiting := by
  have hacts := c.acts random
  generalize (c.turn random).emulator.machine = s at hacts ⊢
  cases hacts with
  | step hcpu =>
    rw [State.waiting_step]
    cases hstarts : (c.before.machine.step random c.before.tracing).executed.any
        (·.op = .awaitKey) <;>
      simp [wait?, executed, hcpu, hstarts, Signal.keyDown?]
  | down hsignal hkey =>
    rw [Emulator.waiting_pressKey]
    simp [wait?, hsignal, Signal.keyDown?, hkey]
  | up hsignal hkey => simp [wait?, executed, hsignal, Signal.keyDown?]
  | rest hcpu hkeys =>
    have hdown : c.signal.keyDown? = none := by
      unfold Signal.keyDown?
      split
      next key hsignal => exact hkeys key (.inl hsignal)
      next => rfl
    have hidle : c.executed random = [] := by
      unfold executed
      split
      next h => exact absurd h hcpu
      next => rfl
    simp [wait?, hdown, hidle]

/-- A callback has stopped the machine for a key, and what comes later lets it be up to the first
key of the keypad that goes down: that one goes to the register `x`, and the machine goes on. -/
structure AwaitsKey (random : Nat → Nat) (c : Callback) (x : Reg) (later : List Callback)
    (last : State) : Prop where
  stalls : (∀ c' ∈ later, c'.signal.keyDown? = none) → last = State.stalled x c.before.machine last
  ends : ∀ meanwhile p rest, later = meanwhile ++ p :: rest →
    (∀ c' ∈ meanwhile, c'.signal.keyDown? = none) →
      p.before.machine = State.stalled x c.before.machine p.before.machine ∧
        ∀ k, p.signal.keyDown? = some k →
          (p.turn random).emulator.machine =
            { p.before.machine.setReg x k.val with
              keys := p.before.machine.keys.set k.val true k.isLt, waiting := false }

end Callback

namespace Plays

variable {e : Emulator} {l : List Callback} {t : Turn}

/-- Callbacks that press no key of the keypad leave a stalled machine stalled. -/
theorem stalled {s : State} {x : Reg} (h : Plays random e l t)
    (hquiet : ∀ c ∈ l, c.signal.keyDown? = none) (he : e.machine = State.stalled x s e.machine) :
    t.emulator.machine = State.stalled x s t.emulator.machine :=
  (h.keeps (P := fun e => e.machine = State.stalled x s e.machine)
    (fun c hc => Callback.stalled_turn (hquiet c hc)) he).1

/-- After an instruction that awaits a key the machine waits for one. -/
theorem awaitsKey {c : Callback} {i : Instruction} (h : Plays random (c.turn random).emulator l t)
    (hexec : c.executed random = [i]) (hop : i.op = .awaitKey) :
    c.AwaitsKey random i.x l t.emulator.machine := by
  have hstopped : (c.turn random).emulator.machine =
      State.stalled i.x c.before.machine (c.turn random).emulator.machine := by
    rw [Callback.turn_awaitKey hexec hop]
    rfl
  refine ⟨fun hquiet => h.stalled hquiet hstopped, fun meanwhile p rest hrest hquiet => ?_⟩
  rw [hrest] at h
  obtain ⟨u, hmeanwhile, hbefore⟩ := h.parts.1
  have hstalled := hmeanwhile.stalled hquiet hstopped
  rw [hbefore] at hstalled
  have hwait : p.before.machine.waiting = true := congrArg State.waiting hstalled
  have hregister : p.before.machine.keyRegister = i.x := congrArg State.keyRegister hstalled
  refine ⟨hstalled, fun k hk => ?_⟩
  rw [Callback.turn_keyDown hk, Emulator.pressKey_waiting hwait, hregister]

end Plays

namespace Emulator

/-- **The keypad does what the keyboard does.** In a session that starts with a machine as it is
switched on and loaded, every number of the keypad belongs to one key of the host, and is held just
when the last stroke of that key was a press. After an instruction that awaits a key the machine is
stalled until a key of the keypad is pressed, whatever else happens and whatever is held, and the
first one that is pressed goes to the register of that instruction. A key that is pressed when no
such instruction is left to be served is held and nothing else. -/
theorem follows_keyboard (random : Nat → Nat) (advanceIndex tracing : Bool) (rom : Bytes)
    (events : List Event) :
    let opened := (start ((State.fresh advanceIndex).load rom).state tracing).emulator
    let played := opened.callbacks random events
    let whole := opened.session random events
    Plays random opened played whole ∧
      (∀ k : Fin 16, ∃ key : HostKey, (∀ key' : HostKey, key'.keypad? = some k ↔ key' = key) ∧
        whole.emulator.machine.keys.get k = key.heldAfter played ∧
        ∀ past c later, played = past ++ c :: later →
          c.before.machine.keys.get k = key.heldAfter past) ∧
      ∀ past c later, played = past ++ c :: later →
        (∀ i, c.executed random = [i] → i.op = .awaitKey →
          c.AwaitsKey random i.x later whole.emulator.machine) ∧
        ∀ k, c.signal.keyDown? = some k → Callback.awaitsAfter random past = false →
          c.turn random =
            quiet { c.before with
              machine := { c.before.machine with
                keys := c.before.machine.keys.set k.val true k.isLt } } := by
  intro opened played whole
  have hplays : Plays random opened played whole := plays_callbacks random events opened
  obtain ⟨memory, hloaded⟩ := State.state_load rom (State.fresh advanceIndex)
  have hfresh : opened.machine = { State.fresh advanceIndex with memory } := hloaded
  refine ⟨hplays, fun k => ?_, fun past c later hsplit => ?_⟩
  · obtain ⟨key, hkey⟩ := HostKey.exists_keypad k
    have hup : opened.machine.keys.get k = false := by
      rw [hfresh]
      exact Vector.getElem_replicate k.isLt
    have hheld {l : List Callback} {t : Turn} (h : Plays random opened l t) :
        t.emulator.machine.keys.get k = key.heldAfter l := by
      have hlast := h.last_setting (fun e => e.machine.keys.get k)
        fun c _ => c.held_turn hkey random
      rwa [hup] at hlast
    refine ⟨key, hkey, hheld hplays, fun past c later hsplit => ?_⟩
    rw [hsplit] at hplays
    obtain ⟨t, hpast, hbefore⟩ := hplays.parts.1
    rw [← hbefore]
    exact hheld hpast
  · rw [hsplit] at hplays
    obtain ⟨⟨t, hpast, hbefore⟩, t', hlater, hend⟩ := hplays.parts
    refine ⟨fun i hexec hop => ?_, fun k hk hnone => ?_⟩
    · rw [← hend]
      exact hlater.awaitsKey hexec hop
    · have hlast := hpast.last_setting (·.machine.waiting) fun c _ => c.waiting_turn random
      have hidle : c.before.machine.waiting = false := by
        rw [← hbefore, hlast, hfresh]
        exact hnone
      rw [Callback.turn_keyDown hk, pressKey_idle hidle]

/-- A key that is held already, `F1`, a release and a key that is not of the keypad go by, and then
`W` ends the wait, whose number 5 goes to `V5`; it is up again at the end. -/
theorem follows_keyboard_first_press :
    let opened := (start ((State.fresh false).load [0xF5, 0x0A, 0x12, 0x02]).state false).emulator
    let events : List Event :=
      [.press (.char 'Q'), .tick 2, .press .f1, .release (.char 'Q'), .press (.char 'B'),
        .press (.char 'W'), .tick 3, .release (.char 'W')]
    (∃ p ∈ opened.callbacks id events, p.signal = .press (.char 'W') ∧
      p.before.machine.waiting = true ∧ (p.turn id).emulator.machine.reg 5 = 5) ∧
      (opened.session id events).emulator.machine.keys.get 5 = false := by
  intro opened events
  obtain ⟨-, hheld, hall⟩ := follows_keyboard id false false [0xF5, 0x0A, 0x12, 0x02] events
  have ⟨hstarts, hends, hothers, hup⟩ :
      (opened.callbacks id events)[1]?.map (·.executed id) = some [⟨.awaitKey, 0xF50A⟩] ∧
      ((opened.callbacks id events).drop 2)[4]?.map (·.signal) = some (.press (.char 'W')) ∧
      (∀ c ∈ ((opened.callbacks id events).drop 2).take 4, c.signal.keyDown? = none) ∧
      HostKey.heldAfter (.char 'W') (opened.callbacks id events) = false := by
    decide +kernel
  have hsplit {l : List Callback} {n : Nat} {c : Callback} (h : l[n]? = some c) :
      l = l.take n ++ c :: l.drop (n + 1) := by
    obtain ⟨hn, rfl⟩ := List.getElem?_eq_some_iff.1 h
    rw [List.getElem_cons_drop, List.take_append_drop]
  obtain ⟨c, hc, hexec⟩ := Option.map_eq_some_iff.1 hstarts
  obtain ⟨p, hp, hpress⟩ := Option.map_eq_some_iff.1 hends
  have hawaits := (hall _ c _ (hsplit hc)).1 _ hexec rfl
  obtain ⟨hstalled, hfills⟩ := hawaits.ends _ p _ (hsplit hp) hothers
  obtain ⟨key, hkey, hlast, -⟩ := hheld 5
  obtain rfl : HostKey.char 'W' = key := (hkey _).1 (by decide)
  have hdown : p.signal.keyDown? = some 5 := by rw [hpress]; decide
  refine ⟨⟨p, List.mem_of_mem_drop (List.mem_of_getElem? hp), hpress, ?_, ?_⟩, ?_⟩
  · exact congrArg State.waiting hstalled
  · rw [hfills 5 hdown]
    exact (State.reg_setReg ..).trans (if_pos rfl)
  · rw [← hup]
    subst opened
    exact hlast

end Emulator

end Chip8Vm
