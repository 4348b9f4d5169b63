import Chip8Vm.Proofs.Footprint
import Chip8Vm.Proofs.Moves

/-!
# The timers

A timer stands at what it was set to last, less the ticks since then, and never below zero. It is
set by one instruction, which takes the content of a register, and by switching on again, which
sets it to zero; it ticks when the host says so and at no other time, whether the machine runs,
waits for a key or faults. `Move.timer_after` says this of a single move, by the footprint of
instructions, and `Leads.timer` of any number of moves. `timers_count_ticks` is the law along a
history, in every state on the way, and of what the instruction that reads the delay timer finds.
-/

namespace Chip8Vm

inductive Timer
  | delay
  | sound
deriving DecidableEq

namespace Timer

/-- What a timer stands at. -/
def value (t : Timer) (s : State) : Nat :=
  match t with
  | delay => s.delay
  | sound => s.sound

/-- The operation that sets a timer to the content of a register. -/
def setter : Timer → Op
  | delay => .setDelay
  | sound => .setSound

end Timer

/-- What a move sets a timer to, if it sets it. -/
def Move.setting? (env : Surroundings) (t : Timer) (m : Move) : Option Nat :=
  if m.call = .reset then some 0
  else ((m.executed env).find? (·.op = t.setter)).map (m.before.reg ·.x)

namespace Timer

variable (env : Surroundings) (t : Timer)

/-- What a timer was set to last by some moves, or what it stood at before them. -/
def lastSetting (start : Nat) (past : List Move) : Nat :=
  (past.filterMap (·.setting? env t)).getLast?.getD start

/-- How many of some moves, since a timer was set last, are ticks. -/
def ticksSince (past : List Move) : Nat :=
  (past.reverse.takeWhile fun m => (m.setting? env t).isNone).countP (·.call = .tickTimers)

variable {env t}

theorem lastSetting_concat (start : Nat) (past : List Move) (m : Move) :
    t.lastSetting env start (past ++ [m]) =
      (m.setting? env t).getD (t.lastSetting env start past) := by
  cases hset : m.setting? env t with
  | none => simp [lastSetting, hset]
  | some v => simp [lastSetting, hset]

theorem ticksSince_concat (past : List Move) (m : Move) :
    t.ticksSince env (past ++ [m]) =
      if (m.setting? env t).isSome then 0
      else t.ticksSince env past + if m.call = .tickTimers then 1 else 0 := by
  cases hset : m.setting? env t with
  | none => simp [ticksSince, hset, List.countP_cons]
  | some v => simp [ticksSince, hset]

end Timer

variable {env : Surroundings} {s : State}

/-- A call that executes nothing and does not switch on again leaves the timers alone, unless it is
a tick. -/
theorem Operation.timer_perform {op : Operation} (hstep : op ≠ .step)
    (hrun : ∀ cycles, op ≠ .run cycles) (hreset : op ≠ .reset) (t : Timer) (s : State) :
    t.value (op.perform env s).state =
      t.value s - if op = .tickTimers then 1 else 0 := by
  cases op with
  | step => exact absurd rfl hstep
  | run cycles => exact absurd rfl (hrun cycles)
  | reset => exact absurd rfl hreset
  | tickTimers => cases t <;> rfl
  | load program =>
    obtain ⟨memory, hstate⟩ := State.state_load program s
    show t.value (s.load program).state = _
    rw [hstate]
    rfl
  | loadFile path =>
    obtain ⟨memory, hstate⟩ := State.state_loadFile env.read env.tracing path s
    show t.value (s.loadFile env.read env.tracing path).state = _
    rw [hstate]
    rfl
  | setKey k held =>
    obtain ⟨keys, hstate⟩ := State.state_setKey k held s
    show t.value (s.setKey k held).state = _
    rw [hstate]
    rfl
  | deliverKey k =>
    obtain ⟨registers, waiting, hstate⟩ := State.state_deliverKey k s
    show t.value (s.deliverKey k).state = _
    rw [hstate]
    rfl
  | clearDirty | isDirty | display | report => rfl
  | fetch =>
    unfold perform
    cases s.memory.word? s.pc <;> rfl

namespace State

variable {random : Nat → Nat} {tracing : Bool} {i : Instruction}

/-- The instruction made for a timer sets it to a register, and no other instruction touches it. -/
theorem timer_step (h : (s.step random tracing).result = .ok (some i)) (t : Timer) :
    t.value (s.step random tracing).state = if i.op = t.setter then s.reg i.x else t.value s := by
  by_cases hop : i.op = t.setter
  · obtain ⟨w, -, -, -, -, hstate⟩ := executes_of_result h
    rw [if_pos hop, hstate, execute, hop]
    cases t <;> rfl
  · rw [if_neg hop]
    cases t with
    | delay => exact (step_footprint h).delay hop
    | sound => exact (step_footprint h).sound hop

/-- The instruction that reads the delay timer puts it in its register. -/
theorem reg_step_readDelay (h : (s.step random tracing).result = .ok (some i))
    (hop : i.op = .readDelay) : (s.step random tracing).state.reg i.x = s.delay := by
  obtain ⟨w, -, -, -, -, hstate⟩ := executes_of_result h
  rw [hstate, execute, hop]
  exact (reg_setReg ..).trans (if_pos rfl)

end State

/-- A move sets a timer, ticks it or leaves it alone. -/
theorem Move.timer_after {m : Move} (hrun : ∀ cycles, m.call ≠ .run cycles) (t : Timer) :
    t.value (m.after env) =
      (m.setting? env t).getD (t.value m.before - if m.call = .tickTimers then 1 else 0) := by
  by_cases hreset : m.call = .reset
  · rw [setting?, if_pos hreset, after, reply, hreset]
    cases t <;> rfl
  rw [setting?, if_neg hreset]
  by_cases hstep : m.call = .step
  · rw [after_step hstep, executed_step hstep, hstep]
    rcases State.step_executed env.random env.tracing m.before with ⟨i, hres, hi⟩ | ⟨hi, hsame⟩
    · rw [hi, State.timer_step hres]
      by_cases hop : i.op = t.setter
      · simp [hop]
      · simp [hop]
    · rw [hi, hsame]
      rfl
  · rw [executed_of_ne_step hstep]
    exact Operation.timer_perform hstep hrun hreset t m.before

/-- After some moves a timer stands at what it was set to last, less the ticks since then. -/
theorem Leads.timer {l : List Move} {u : State} (h : Leads env s l u)
    (hrun : ∀ m ∈ l, ∀ cycles, m.call ≠ .run cycles) (t : Timer) :
    t.value u = t.lastSetting env (t.value s) l - t.ticksSince env l := by
  refine h.accumulates (P := fun past u =>
    t.value u = t.lastSetting env (t.value s) past - t.ticksSince env past) rfl ?_
  intro past m hm hpast
  rw [Move.timer_after (hrun m hm), hpast, Timer.lastSetting_concat, Timer.ticksSince_concat]
  cases m.setting? env t with
  | none => exact Nat.sub_sub ..
  | some v => rfl

namespace State

/-- **The timers count the ticks of the host and nothing else.** Along a history, in every state on
the way and in the last one, a timer stands at what it was set to last, less the ticks since then,
where switching on sets it to zero; and that is what an instruction finds which reads the delay
timer. -/
theorem timers_count_ticks (env : Surroundings) (s : State) (history : List Operation) :
    (∀ t : Timer, t.value (s.after env history) =
      t.lastSetting env (t.value s) (s.moves env history) -
        t.ticksSince env (s.moves env history)) ∧
    (∀ past m later, s.moves env history = past ++ m :: later →
      (∀ t : Timer, t.value m.before =
        t.lastSetting env (t.value s) past - t.ticksSince env past) ∧
      ∀ i, m.executed env = [i] → i.op = .readDelay →
        (m.after env).reg i.x =
          Timer.delay.lastSetting env s.delay past - Timer.delay.ticksSince env past) ∧
    ∀ (t : Timer) (advanceIndex : Bool), t.value (fresh advanceIndex) = 0 := by
  refine ⟨(leads_moves history s).timer fun m hm => Move.call_ne_run hm, ?_, ?_⟩
  · intro past m later hsplit
    have hpast : ∀ t : Timer, t.value m.before =
        t.lastSetting env (t.value s) past - t.ticksSince env past := by
      obtain ⟨hleads, hrun⟩ := Move.leads_past hsplit
      exact hleads.timer hrun
    refine ⟨hpast, fun i hexec hop => ?_⟩
    obtain ⟨hstep, hres⟩ := Move.result_step_of_executed hexec
    rw [Move.after_step hstep, reg_step_readDelay hres hop]
    exact hpast .delay
  · intro t advanceIndex
    cases t <;> rfl

/-- The delay timer is set to 5 and ticks twice while the machine waits for a key and once more
after it; what is read then is 2. -/
theorem timers_count_ticks_while_waiting :
    let env : Surroundings := ⟨fun _ => 0, false, fun _ => .ok []⟩
    let program := [0x63, 0x05, 0xF3, 0x15, 0xF4, 0x0A, 0xF6, 0x07]
    let s := ((fresh false).load program).state
    let history : List Operation :=
      [.run 10, .tickTimers, .tickTimers, .deliverKey 1, .tickTimers, .step]
    (s.after env history).delay = 2 ∧
      ∃ m, (s.moves env history).getLast? = some m ∧ (m.after env).reg 6 = 2 := by
  intro env program s history
  obtain ⟨hlast, hway, -⟩ := timers_count_ticks env s history
  have ⟨hread, hset, hticks, hend⟩ :
      (s.moves env history).getLast?.map (·.executed env) = some [⟨.readDelay, 0xF607⟩] ∧
      Timer.delay.lastSetting env s.delay (s.moves env history).dropLast = 5 ∧
      Timer.delay.ticksSince env (s.moves env history).dropLast = 3 ∧
      Timer.delay.lastSetting env s.delay (s.moves env history) -
        Timer.delay.ticksSince env (s.moves env history) = 2 := by
    decide +kernel
  obtain ⟨m, hm, hexec⟩ := Option.map_eq_some_iff.1 hread
  obtain ⟨past, hsplit⟩ := List.getLast?_eq_some_iff.1 hm
  have hreg := (hway past m [] hsplit).2 _ hexec rfl
  rw [hsplit, List.dropLast_concat] at hset hticks
  rw [hset, hticks] at hreg
  exact ⟨(hlast .delay).trans hend, m, hm, hreg⟩

end State

end Chip8Vm
