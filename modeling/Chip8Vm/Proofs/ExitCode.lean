import Chip8Vm.CommandLine
import Chip8Vm.Proofs.Guarded.Handlers

/-!
# The exit code

A fault is the last thing that happens in a session: the tick that runs into it stops both clocks
and closes the window, and a closed window gets no more callbacks. So there is at most one
(`Plays.countP_faults`), the emulator still has it in the end, and the exit code tells whether there
was one. Nothing else puts an end to a session out of turn, since the machine is sound from the
start and stays so from callback to callback (`Plays.sound`), and nothing escapes from a handler
on a sound machine.

`exit_code_tells_fault` says this of every call of the emulator, and that a call without a program
to play asks nothing of the host.
-/

namespace Chip8Vm

variable {random : Nat → Nat} {e : Emulator} {c : Callback} {l l' : List Callback} {t : Turn}
  {f : Fault}

namespace Callback

def faults (random : Nat → Nat) (c : Callback) : Bool := (c.fault? random).isSome

/-- A callback is a tick that runs into a fault and stops everything: it ends what it prints with
the fault, stops the clocks of the processor and of the timers and closes the window, in this order,
and changes nothing of the machine. -/
structure StopsWith (random : Nat → Nat) (f : Fault) (c : Callback) : Prop where
  signal : c.signal = .tick .cpu
  result : (c.before.machine.step random c.before.tracing).result = .error f
  printed : (c.turn random).printed =
    (c.before.machine.step random c.before.tracing).printed ++ ["Emulation error: " ++ f.message]
  requests : (c.turn random).requests =
    [.unschedule .cpu, .unschedule .timers, .closeWindow]
  emulator : (c.turn random).emulator =
    { c.before with fault := some f, scheduled := [], closed := true }

theorem stopsWith_of_fault (h : c.fault? random = some f) : c.StopsWith random f := by
  obtain ⟨hcpu, hr⟩ := fault?_eq_some_iff.1 h
  have hturn := (turn_tick hcpu).trans (Emulator.tick_error hr)
  exact {
    signal := hcpu
    result := hr
    printed := congrArg Turn.printed hturn
    requests := congrArg Turn.requests hturn
    emulator := congrArg Turn.emulator hturn }

end Callback

namespace Plays

/-- Nothing is called back after a fault. -/
theorem eq_nil_of_fault (h : Plays random e (l ++ c :: l') t) (hf : c.fault? random = some f) :
    l' = [] := by
  obtain ⟨-, t', hlater⟩ := h.split
  refine hlater.eq_nil_of_closed ?_
  rw [(Callback.stopsWith_of_fault hf).emulator]

/-- There is at most one fault. -/
theorem countP_faults (h : Plays random e l t) : l.countP (·.faults random) ≤ 1 := by
  induction h with
  | nil => exact Nat.zero_le 1
  | @cons c l t hopen hrest ih =>
    cases hf : c.fault? random with
    | none =>
      have hnot : ¬c.faults random = true := by simp [Callback.faults, hf]
      rwa [List.countP_cons_of_neg hnot]
    | some f =>
      have hfirst : Plays random c.before ([] ++ c :: l) _ := .cons c hopen hrest
      obtain rfl := hfirst.eq_nil_of_fault hf
      exact List.countP_le_length

/-- An emulator has a fault in the end if it had one before, or if one of its callbacks has. -/
theorem isSome_fault (h : Plays random e l t) :
    t.emulator.fault.isSome = (e.fault.isSome || l.any (·.faults random)) := by
  induction h with
  | nil e => exact (Bool.or_false _).symm
  | @cons c l t _ _ ih =>
    have hturn : (c.turn random).emulator.fault.isSome =
        (c.faults random || c.before.fault.isSome) := by
      rw [(c.turn_fault random).1, Option.isSome_or]
      rfl
    calc t.emulator.fault.isSome
      _ = ((c.faults random || c.before.fault.isSome) || l.any (·.faults random)) := by rw [ih, hturn]
      _ = (c.before.fault.isSome || (c.faults random || l.any (·.faults random))) := by
        rw [Bool.or_comm (c.faults random), Bool.or_assoc]

theorem opens_no_window (h : Plays random e l t) : t.requests.countP Request.opensWindow = 0 := by
  have hnone := h.any_requests fun c _ => (c.turn_fault random).2
  exact List.countP_eq_zero.2 (List.any_eq_false.1 hnone)

/-- The machine stays sound from callback to callback. -/
theorem sound (h : Plays random e l t) (he : e.machine.Sound) :
    ∀ c ∈ l, c.before.machine.Sound := by
  refine (h.keeps (P := fun e => e.machine.Sound) (fun c _ hc => ?_) he).2
  have hturn := c.signal.machine_answer random (fun _ => .ok []) c.before
  show (c.signal.answer random c.before).emulator.machine.Sound
  rw [hturn]
  exact (State.invariant_sound _).after _ hc

end Plays

/-- A file that cannot be read is not loaded for just that reason. -/
theorem State.read_of_loadFile_error {read : String → Except ReadError Bytes} {tracing : Bool}
    {path : String} {s : State} {e : ReadError}
    (h : (s.loadFile read tracing path).result = .error (.unreadable e)) :
    read path = .error e := by
  unfold loadFile at h
  rw [Reply.result_after] at h
  cases hread : read path with
  | error e' =>
    rw [hread] at h
    cases h
    rfl
  | ok program =>
    simp only [hread] at h
    rw [Reply.result_note] at h
    obtain ⟨e', -, he⟩ := Reply.error_of_relabel h
    cases he

namespace CommandLine

/-- All that a call asks of the host. -/
def Outcome.requests (o : Outcome) : List Request := o.opening ++ o.turns.flatMap (·.requests)

/-- How a call goes that has opened a window, with the callbacks that it gets. -/
structure Outcome.PlaysOut (random : Nat → Nat) (opened : Turn) (played : List Callback)
    (o : Outcome) : Prop where
  /-- The callbacks account for all that is asked, printed and left in the end. -/
  session : ∃ whole, Plays random opened.emulator played whole ∧
    o.session = some whole.emulator ∧ o.requests = opened.requests ++ whole.requests ∧
    o.turns.flatMap (·.printed) = whole.printed
  window : o.requests.countP Request.opensWindow = 1
  exit : o.exit = if played.any (·.faults random) then 1 else 0
  /-- No handler lets anything out but its turn, wherever there is room for the window's picture. -/
  contained : ∀ room, Emulator.pictureBytes ≤ room → ∀ c ∈ played,
    Guarded.answer room random c.signal c.before = .ok (c.turn random)
  once : played.countP (·.faults random) ≤ 1
  /-- A fault stops everything, and nothing comes after it. -/
  stops : ∀ past c later f, played = past ++ c :: later → c.fault? random = some f →
    c.StopsWith random f ∧ later = []

/-- A script is played event by event. -/
theorem playSession_eq (env : Surroundings) (printed : List String) (script : Script) (s : State) :
    playSession env printed script s =
      let opened := Emulator.start s env.tracing
      let last := opened.emulator.after env.random script.events
      { exit := last.exitCode
        printed := printed ++ opened.printed
        opening := opened.requests
        loaded := s
        turns := opened.emulator.turns env.random script.events
        session := some last } := by
  simp only [playSession, Emulator.turnsOfScript_eq_turns]
  rfl

theorem playsOut_playSession (env : Surroundings) (printed : List String) (script : Script)
    {s : State} (hs : s.Sound) :
    let opened := Emulator.start s env.tracing
    (playSession env printed script s).PlaysOut env.random opened
      (opened.emulator.callbacks env.random script.events) := by
  intro opened
  have hplays := Emulator.plays_callbacks env.random script.events opened.emulator
  rw [playSession_eq]
  exact {
    session := ⟨_, hplays, rfl, rfl, rfl⟩
    window := by
      show (opened.requests ++ _).countP Request.opensWindow = 1
      rw [List.countP_append]
      exact congrArg (1 + ·) hplays.opens_no_window
    exit := by
      show (if (opened.emulator.session env.random script.events).emulator.fault.isSome
        then 1 else 0) = _
      rw [hplays.isSome_fault]
      rfl
    contained := fun room hroom c hc =>
      Guarded.answer_eq_ok hroom (hplays.sound hs c hc) env.random c.signal
    once := hplays.countP_faults
    stops := by
      intro past c later f hsplit hf
      rw [hsplit] at hplays
      exact ⟨Callback.stopsWith_of_fault hf, hplays.eq_nil_of_fault hf⟩ }

/-- **The exit code tells whether the machine faulted.** A call without a program to play ends with
exit code 1 and asks nothing of the host. Any other call opens one window, nothing escapes from it
or from a handler, and its exit code is 1 just when one of the ticks faults, which is then the last
thing to happen. -/
theorem exit_code_tells_fault (env : Surroundings) (advanceIndex : Bool) (arguments : List String)
    (script : Script) (hread : ∀ path ∈ arguments.head?, env.read path ≠ .error .notPath) :
    let load (path : String) := (State.fresh advanceIndex).loadFile env.read env.tracing path
    let unloaded := arguments = [] ∨
      ∃ path rest e, arguments = path :: rest ∧ (load path).result = .error e
    ∃ outcome, call env arguments script (State.fresh advanceIndex) = .ok outcome ∧
      (unloaded → outcome.exit = 1 ∧ outcome.requests = []) ∧
      (¬unloaded → ∃ path rest, arguments = path :: rest ∧
        let opened := Emulator.start (load path).state env.tracing
        outcome.PlaysOut env.random opened
          (opened.emulator.callbacks env.random script.events)) := by
  intro load unloaded
  cases arguments with
  | nil => exact ⟨_, rfl, fun _ => ⟨rfl, rfl⟩, fun h => absurd (.inl rfl) h⟩
  | cons path rest =>
    cases hr : (load path).result with
    | ok size =>
      have hcall : call env (path :: rest) script (State.fresh advanceIndex) =
          .ok (playSession env (load path).printed script (load path).state) := by
        simp only [call]
        rw [hr]
      have hsound : (load path).state.Sound :=
        (State.invariant_sound env).loadFile path (State.sound_fresh advanceIndex)
      refine ⟨_, hcall, fun h => ?_, fun _ => ⟨path, rest, rfl, playsOut_playSession _ _ _ hsound⟩⟩
      -- the program has been loaded
      rcases h with hnil | ⟨path', rest', e, hargs, he⟩
      · cases hnil
      · obtain ⟨rfl, rfl⟩ := List.cons.inj hargs
        rw [hr] at he
        cases he
    | error e =>
      have hcall : call env (path :: rest) script (State.fresh advanceIndex) =
          .ok (.stopped ((load path).printed ++ ["Cannot load " ++ path ++ ": " ++ e.message])
            (load path).state) := by
        simp only [call]
        rw [hr]
        rcases e with large | ⟨problem, name⟩ | _
        · rfl
        · rfl
        · exact absurd (State.read_of_loadFile_error hr) (hread path rfl)
      exact ⟨_, hcall, fun _ => ⟨rfl, rfl⟩,
        fun h => absurd (.inr ⟨path, rest, e, rfl, hr⟩) h⟩

/-- A return at the very start of a program faults at the first tick; two further ticks, two of the
timers and a drawing are never answered. -/
theorem exit_code_tells_fault_lone_return :
    let read : String → Except ReadError Bytes := fun path =>
      if path = "rom" then .ok [0x00, 0xEE] else .error (.refused .notFound path)
    let env : Surroundings := ⟨fun _ => 0, false, read⟩
    let script : Script := [(.draw, 1), (.tick 3, 1), (.timer 2, 1), (.draw, 1)]
    ∃ outcome, call env ["rom"] script (State.fresh false) = .ok outcome ∧ outcome.exit = 1 ∧
      outcome.requests.countP Request.opensWindow = 1 := by
  intro read env script
  have hread : ∀ path ∈ ["rom"].head?, env.read path ≠ .error .notPath := by
    rintro path ⟨⟩ hnot
    cases hnot
  obtain ⟨outcome, hcall, -, hplays⟩ := exit_code_tells_fault env false ["rom"] script hread
  have hloaded : ¬(["rom"] = [] ∨ ∃ path rest e, ["rom"] = path :: rest ∧
      ((State.fresh false).loadFile env.read env.tracing path).result = .error e) := by
    rintro (hnil | ⟨path, rest, e, hargs, he⟩)
    · cases hnil
    · cases hargs
      cases he
  obtain ⟨path, rest, hargs, hout⟩ := hplays hloaded
  cases hargs
  have hfault : List.any ((Emulator.start ((State.fresh false).loadFile env.read env.tracing
      "rom").state env.tracing).emulator.callbacks env.random script.events)
      (·.faults env.random) = true := by
    decide +kernel
  exact ⟨outcome, hcall, hout.exit.trans (if_pos hfault), hout.window⟩

end CommandLine

end Chip8Vm
