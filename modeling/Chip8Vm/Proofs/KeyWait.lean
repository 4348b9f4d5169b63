import Chip8Vm.Proofs.Moves

/-!
# Waiting for a key

The instruction that awaits a key stops the machine behind itself and keeps the register that the
key goes to. `State.stalled` is the machine as it waits then: the keys, the timers and the mark on
the display are left open, and nothing else can change while no key is delivered
(`stalled_visited`). So however often it is stepped, ticked or handed a number that is no key, the
first delivery of a key finds it there, fills the register and lets it go on
(`waits_until_delivery`). A delivery that nobody waits for does nothing.
-/

namespace Chip8Vm

/-- The calls that do not end a wait, all but delivering a key that there is, loading another program
and switching on again. -/
def Operation.keepsWait : Operation → Bool
  | .deliverKey k => decide (k < 0 ∨ 16 ≤ k)
  | .load _ => false
  | .loadFile _ => false
  | .reset => false
  | _ => true

variable {env : Surroundings} {random : Nat → Nat} {tracing : Bool} {i : Instruction}
  {history : List Operation} {s t : State} {x : Reg}

/-- While the machine waits, a call that does not end the wait changes the keys, the timers and the
mark on the display at most. -/
theorem Operation.state_perform_waiting {op : Operation} (hrun : ∀ cycles, op ≠ .run cycles)
    (hop : op.keepsWait = true) (hwait : t.waiting = true) :
    ∃ keys delay sound dirty, (op.perform env t).state = { t with keys, delay, sound, dirty } := by
  cases op with
  | step =>
    refine ⟨t.keys, t.delay, t.sound, t.dirty, ?_⟩
    show (t.step env.random env.tracing).state = t
    rw [State.step_waiting hwait]
    rfl
  | run cycles => exact absurd rfl (hrun cycles)
  | setKey k held =>
    obtain ⟨keys, hstate⟩ := State.state_setKey k held t
    exact ⟨keys, t.delay, t.sound, t.dirty, hstate⟩
  | deliverKey k =>
    refine ⟨t.keys, t.delay, t.sound, t.dirty, ?_⟩
    show (t.deliverKey k).state = t
    rw [State.deliverKey_no_key hwait (of_decide_eq_true hop)]
    rfl
  | tickTimers | clearDirty | isDirty | display | report => exact ⟨_, _, _, _, rfl⟩
  | fetch =>
    unfold perform
    cases t.memory.word? t.pc <;> exact ⟨_, _, _, _, rfl⟩
  | load | loadFile | reset => cases hop

/-- A history that does not end a wait is made of moves that do not. -/
theorem Move.keepsWait_call {m : Move} (hkeeps : ∀ op ∈ history, op.keepsWait = true)
    (hm : m ∈ s.moves env history) : m.call.keepsWait = true := by
  rcases call_cases hm with hstep | ⟨hmem, -⟩
  · rw [hstep]
    rfl
  · exact hkeeps _ hmem

namespace State

/-- The machine that has come to await a key for `x` in `s`, with the keys, the timers and the mark
on the display that it has in `t`. -/
def stalled (x : Reg) (s t : State) : State :=
  { s with
    pc := s.pc + 2, waiting := true, keyRegister := x,
    keys := t.keys, delay := t.delay, sound := t.sound, dirty := t.dirty }

/-- Awaiting a key moves on and starts to wait. -/
theorem state_step_awaitKey (h : (s.step random tracing).result = .ok (some i))
    (hop : i.op = .awaitKey) : (s.step random tracing).state = stalled i.x s s := by
  obtain ⟨w, -, -, -, -, hstate⟩ := executes_of_result h
  rw [hstate, execute, hop]
  rfl

/-- A stalled machine stays stalled until the wait ends. -/
theorem stalled_visited {u : State} (hu : u = stalled x s u)
    (hkeeps : ∀ op ∈ history, op.keepsWait = true) :
    ∀ t ∈ u.visited env history, t = stalled x s t := by
  refine visited_keeps (fun m hm hbefore => ?_) hu
  have hwait : m.before.waiting = true := congrArg waiting hbefore
  obtain ⟨keys, delay, sound, dirty, hstate⟩ :=
    m.call.state_perform_waiting (Move.call_ne_run hm) (Move.keepsWait_call hkeeps hm) hwait
  rw [Move.after, Move.reply, hstate, hbefore]
  rfl

/-- A stalled machine gives nothing to a step and refuses what is no key. -/
theorem stalled_replies {u : State} (hu : u = stalled x s u)
    (hkeeps : ∀ op ∈ history, op.keepsWait = true) :
    ∀ m ∈ u.moves env history,
      (m.call = .step → (m.reply env).result = .ok (.instruction none)) ∧
        ∀ k, m.call = .deliverKey k → (m.reply env).result = .error (.key (.value k)) := by
  intro m hm
  have hbefore := stalled_visited hu hkeeps _ (Move.before_mem_visited hm)
  have hwait : m.before.waiting = true := congrArg waiting hbefore
  have hkeep := Move.keepsWait_call hkeeps hm
  refine ⟨fun hcall => ?_, fun k hcall => ?_⟩
  · rw [Move.reply, hcall, Operation.perform, step_waiting hwait]
    rfl
  · rw [hcall] at hkeep
    have hnokey : k < 0 ∨ 16 ≤ k := of_decide_eq_true hkeep
    rw [Move.reply, hcall, Operation.perform, deliverKey_no_key hwait hnokey]
    rfl

/-- A stalled machine takes the first key for the register that waits. -/
theorem deliverKey_stalled (ht : t = stalled x s t) (k : Fin 16) :
    t.deliverKey k.val = .ok true { t.setReg x k.val with waiting := false } := by
  have hwait : t.waiting = true := congrArg waiting ht
  have hregister : t.keyRegister = x := congrArg keyRegister ht
  rw [deliverKey_key k hwait, hregister]

/-- A machine that does not wait gives an instruction or a fault. -/
theorem result_step_ne_none (random : Nat → Nat) (tracing : Bool) (h : s.waiting = false) :
    (s.step random tracing).result ≠ .ok none := by
  have hr := step_reply random tracing s
  generalize s.step random tracing = r at hr ⊢
  cases hr with
  | wait hw => simp [h] at hw
  | outside | unknown | stack | execute => exact nofun

/-- **A wait lasts until a key is delivered.** After the instruction that awaits one, whatever does
not end the wait leaves the machine stalled behind that instruction: steps give nothing, and
deliveries of what is no key are refused. The first key that is delivered goes to the register of the
instruction, and the machine goes on from there. Where nothing waits, a delivery does nothing. -/
theorem waits_until_delivery (random : Nat → Nat) (tracing : Bool) (s : State) :
    let stopped := (s.step random tracing).state
    (∀ i, (s.step random tracing).result = .ok (some i) → i.op = .awaitKey →
      ∀ (env : Surroundings) (history : List Operation),
        (∀ op ∈ history, op.keepsWait = true) →
          (∀ m ∈ stopped.moves env history,
            (m.call = .step → (m.reply env).result = .ok (.instruction none)) ∧
              ∀ k, m.call = .deliverKey k → (m.reply env).result = .error (.key (.value k))) ∧
          ∀ t ∈ stopped.visited env history,
            t = stalled i.x s t ∧
              ∀ k : Fin 16,
                t.deliverKey k.val = .ok true { t.setReg i.x k.val with waiting := false } ∧
                  (t.deliverKey k.val).state.pc = s.pc + 2 ∧
                    ((t.deliverKey k.val).state.step random tracing).result ≠ .ok none) ∧
      (s.waiting = false → ∀ k, s.deliverKey k = .ok false s) := by
  intro stopped
  refine ⟨?_, fun hidle k => deliverKey_not_waiting k hidle⟩
  intro i hres hop env history hkeeps
  have hstopped : stopped = stalled i.x s stopped := by
    simp only [stopped, state_step_awaitKey hres hop]
    rfl
  refine ⟨stalled_replies hstopped hkeeps, fun t ht => ?_⟩
  have hstalled : t = stalled i.x s t := stalled_visited hstopped hkeeps t ht
  refine ⟨hstalled, fun k => ?_⟩
  have hdelivered := deliverKey_stalled hstalled k
  refine ⟨hdelivered, ?_, ?_⟩
  · have hpc : t.pc = s.pc + 2 := congrArg pc hstalled
    rw [hdelivered]
    exact hpc
  · rw [hdelivered]
    exact result_step_ne_none random tracing rfl

/-- A held key and the number 16 do not end the wait, and then key 7 goes to `V5`. -/
theorem waits_until_delivery_key_seven :
    let env : Surroundings := ⟨fun _ => 0, false, fun _ => .ok []⟩
    let s := ((fresh false).load [0xF5, 0x0A]).state
    let history : List Operation := [.setKey 3 true, .run 10, .deliverKey 16, .tickTimers]
    let t := (s.step env.random env.tracing).state.after env history
    t.deliverKey 7 = .ok true { t.setReg 5 7 with waiting := false } ∧
      (t.deliverKey 7).state.pc = 0x202 ∧ s.deliverKey 7 = .ok false s := by
  intro env s history t
  have hwaits : (s.step env.random env.tracing).executed = [⟨.awaitKey, 0xF50A⟩] := by
    decide +kernel
  obtain ⟨hwait, hidle⟩ := waits_until_delivery env.random env.tracing s
  have hall := hwait _ (Reply.result_of_executed hwaits) rfl env history (by decide)
  have hkey := (hall.2 t (after_mem_visited history _)).2 7
  exact ⟨hkey.1, hkey.2.1, hidle rfl 7⟩

end State

end Chip8Vm
