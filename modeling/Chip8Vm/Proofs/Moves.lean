import Chip8Vm.Operation
import Chip8Vm.Proofs.Step

/-!
# Move by move

A run is many steps in one call. The moves of a history are the single calls it comes to, with
every run taken apart into its steps, and each move knows the state it finds. `Leads` says that
moves follow on one another from one state to another, which the moves of a history do
(`leads_moves`). So what every move keeps holds in all states on the way (`visited_keeps`), and
what adds up from move to move adds up over the whole history (`Leads.relates`).
-/

namespace Chip8Vm

/-- A call that is not a run, and the state that it finds. -/
structure Move where
  before : State
  call : Operation

namespace Move

variable (env : Surroundings) (m : Move)

def reply : Reply Refusal Answer := m.call.perform env m.before

/-- The state that a move leaves, also where it is refused. -/
def after : State := (m.reply env).state

/-- The instruction that a move executes, if it is a step that executes one. -/
def executed : List Instruction :=
  match m.call with
  | .step => (m.before.step env.random env.tracing).executed
  | _ => []

variable {env m}

theorem after_step (h : m.call = .step) :
    m.after env = (m.before.step env.random env.tracing).state := by
  rw [after, reply, h]
  rfl

theorem executed_step (h : m.call = .step) :
    m.executed env = (m.before.step env.random env.tracing).executed := by
  rw [executed, h]

theorem executed_of_ne_step (h : m.call ≠ .step) : m.executed env = [] := by
  unfold executed
  split
  next hstep => exact absurd hstep h
  next => rfl

/-- A move that executes an instruction is a step that gives it back. -/
theorem result_step_of_executed {i : Instruction} (h : m.executed env = [i]) :
    m.call = .step ∧ (m.before.step env.random env.tracing).result = .ok (some i) := by
  by_cases hstep : m.call = .step
  · rw [executed_step hstep] at h
    exact ⟨hstep, Reply.result_of_executed h⟩
  · rw [executed_of_ne_step hstep] at h
    cases h

end Move

/-- The states in which a run takes its steps. -/
def State.runStates (random : Nat → Nat) (tracing : Bool) : Nat → State → List State
  | 0, _ => []
  | n + 1, s =>
    let r := s.step random tracing
    s :: match r.result with
      | .ok (some _) => runStates random tracing n r.state
      | _ => []

/-- The moves of one call. -/
def Operation.moves (env : Surroundings) (op : Operation) (s : State) : List Move :=
  match op with
  | .run cycles => (s.runStates env.random env.tracing cycles.toNat).map (⟨·, .step⟩)
  | op => [⟨s, op⟩]

namespace State

/-- The moves of a history. -/
def moves (env : Surroundings) : List Operation → State → List Move
  | [], _ => []
  | op :: history, s => op.moves env s ++ moves env history (op.perform env s).state

/-- All states on the way, the first and the last one included. -/
def visited (env : Surroundings) (history : List Operation) (s : State) : List State :=
  s :: (s.moves env history).map (·.after env)

/-- The instructions that a history executes; those that the stack refuses are not among them. -/
def instructions (env : Surroundings) (history : List Operation) (s : State) : List Instruction :=
  (s.moves env history).flatMap (·.executed env)

end State

/-- Moves that follow on one another, from a first state to a last one. -/
inductive Leads (env : Surroundings) : State → List Move → State → Prop
  | nil (s : State) : Leads env s [] s
  | cons (m : Move) {l : List Move} {t : State} (h : Leads env (m.after env) l t) :
    Leads env m.before (m :: l) t

variable {env : Surroundings}

namespace Leads

variable {s t u : State} {l l' : List Move}

theorem append (h : Leads env s l t) (h' : Leads env t l' u) : Leads env s (l ++ l') u := by
  induction h with
  | nil => exact h'
  | cons m _ ih => exact .cons m (ih h')

/-- What each move keeps holds before and after each of them, and at the end. -/
theorem keeps {P : State → Prop} (h : Leads env s l t)
    (hmove : ∀ m ∈ l, P m.before → P (m.after env)) (hs : P s) :
    P t ∧ ∀ m ∈ l, P m.before ∧ P (m.after env) := by
  induction h with
  | nil => exact ⟨hs, fun m hm => absurd hm List.not_mem_nil⟩
  | cons m _ ih =>
    have hnext : P (m.after env) := hmove m (List.mem_cons_self ..) hs
    obtain ⟨hlast, hall⟩ := ih (fun m' hm' => hmove m' (List.mem_cons_of_mem _ hm')) hnext
    refine ⟨hlast, fun m' hm' => ?_⟩
    rcases List.mem_cons.1 hm' with rfl | hlater
    · exact ⟨hs, hnext⟩
    · exact hall m' hlater

/-- What the instructions of each move say about its two states, those of all moves say about the
first state and the last. -/
theorem relates {R : List Instruction → State → State → Prop} (hnil : ∀ s, R [] s s)
    (happend : ∀ {i i' s s' s''}, R i s s' → R i' s' s'' → R (i ++ i') s s'')
    (h : Leads env s l t) (hmove : ∀ m ∈ l, R (m.executed env) m.before (m.after env)) :
    R (l.flatMap (·.executed env)) s t := by
  induction h with
  | nil s => exact hnil s
  | cons m _ ih =>
    have hfirst := hmove m (List.mem_cons_self ..)
    have hrest := ih fun m' hm' => hmove m' (List.mem_cons_of_mem _ hm')
    exact happend hfirst hrest

/-- Up to a move on the way the earlier moves lead to the state that it finds. -/
theorem split {m : Move} (h : Leads env s (l ++ m :: l') t) :
    Leads env s l m.before ∧ Leads env (m.after env) l' t := by
  induction l generalizing s with
  | nil =>
    cases h with
    | cons _ hrest => exact ⟨.nil _, hrest⟩
  | cons m' l ih =>
    cases h with
    | cons _ hrest =>
      obtain ⟨hearlier, hlater⟩ := ih hrest
      exact ⟨.cons m' hearlier, hlater⟩

/-- What each move carries on from the moves so far and the state that they lead to holds of all
moves and the last state. -/
theorem accumulates {P : List Move → State → Prop} (h : Leads env s l t) (hnil : P [] s)
    (hmove : ∀ past, ∀ m ∈ l, P past m.before → P (past ++ [m]) (m.after env)) : P l t := by
  induction h generalizing P with
  | nil => exact hnil
  | cons m _ ih =>
    -- the first move counts as past from here on
    refine ih (P := fun past => P (m :: past)) (hmove [] m (List.mem_cons_self ..) hnil) ?_
    exact fun past m' hm' => hmove (m :: past) m' (List.mem_cons_of_mem _ hm')

end Leads

/-- The steps of a run lead where the run leads, however it ends. -/
theorem State.leads_runStates (n : Nat) (s : State) :
    Leads env s ((s.runStates env.random env.tracing n).map (⟨·, .step⟩))
      (s.runSteps env.random env.tracing n).state := by
  induction n generalizing s with
  | zero => exact .nil s
  | succ n ih =>
    rcases hr : (s.step env.random env.tracing).result with f | _ | i
    -- a fault or a wait ends the run with this step
    · simp only [runStates, runSteps, hr]
      exact .cons ⟨s, .step⟩ (.nil _)
    · simp only [runStates, runSteps, hr]
      exact .cons ⟨s, .step⟩ (.nil _)
    · simp only [runStates, runSteps, hr, Reply.state_after]
      exact .cons ⟨s, .step⟩ (ih _)

theorem Operation.leads_moves (op : Operation) (s : State) :
    Leads env s (op.moves env s) (op.perform env s).state := by
  cases op with
  | run cycles => exact State.leads_runStates cycles.toNat s
  | _ => exact .cons ⟨s, _⟩ (.nil _)

namespace State

variable {history : List Operation} {s : State}

/-- The moves of a history lead where the history leads. -/
theorem leads_moves (history : List Operation) (s : State) :
    Leads env s (s.moves env history) (s.after env history) := by
  induction history generalizing s with
  | nil => exact .nil s
  | cons op history ih => exact (op.leads_moves s).append (ih _)

/-- Where a history ends is on its way. -/
theorem after_mem_visited (history : List Operation) (s : State) :
    s.after env history ∈ s.visited env history := by
  have hall := (leads_moves history s).keeps (P := (· ∈ s.visited env history))
    (fun m hm _ => List.mem_cons_of_mem _ (List.mem_map_of_mem hm)) (List.mem_cons_self ..)
  exact hall.1

/-- What each move keeps holds all the way. -/
theorem visited_keeps {P : State → Prop}
    (hmove : ∀ m ∈ s.moves env history, P m.before → P (m.after env)) (hs : P s) :
    ∀ t ∈ s.visited env history, P t := by
  intro t ht
  rcases List.mem_cons.1 ht with rfl | hlater
  · exact hs
  · obtain ⟨m, hm, rfl⟩ := List.mem_map.1 hlater
    exact (((leads_moves history s).keeps hmove hs).2 m hm).2

end State

namespace Move

variable {history : List Operation} {s : State} {m : Move}

theorem after_mem_visited (hm : m ∈ s.moves env history) : m.after env ∈ s.visited env history :=
  List.mem_cons_of_mem _ (List.mem_map_of_mem hm)

/-- Each move but the first finds the state that the one before it leaves. -/
theorem before_mem_visited (hm : m ∈ s.moves env history) : m.before ∈ s.visited env history := by
  have hall := (State.leads_moves history s).keeps (P := (· ∈ s.visited env history))
    (fun m' hm' _ => after_mem_visited hm') (List.mem_cons_self ..)
  exact (hall.2 m hm).1

/-- A move is a step, or a call of the history that is not a run. -/
theorem call_cases (hm : m ∈ s.moves env history) :
    m.call = .step ∨ m.call ∈ history ∧ ∀ cycles, m.call ≠ .run cycles := by
  induction history generalizing s with
  | nil => cases hm
  | cons op history ih =>
    rcases List.mem_append.1 hm with hfirst | hlater
    · cases op with
      | run cycles =>
        obtain ⟨t, -, rfl⟩ := List.mem_map.1 hfirst
        exact .inl rfl
      | _ =>
        obtain rfl := List.mem_singleton.1 hfirst
        exact .inr ⟨List.mem_cons_self .., fun _ => Operation.noConfusion⟩
    · exact (ih hlater).imp_right fun hcall => ⟨List.mem_cons_of_mem _ hcall.1, hcall.2⟩

theorem call_ne_run (hm : m ∈ s.moves env history) (cycles : Int) : m.call ≠ .run cycles := by
  rcases call_cases hm with hstep | ⟨-, hrun⟩
  · rw [hstep]
    exact Operation.noConfusion
  · exact hrun cycles

/-- The moves before one on the way lead to the state that it finds. -/
theorem leads_past {past later : List Move} (hsplit : s.moves env history = past ++ m :: later) :
    Leads env s past m.before ∧ ∀ m' ∈ past, ∀ cycles, m'.call ≠ .run cycles := by
  have hleads : Leads env s (s.moves env history) (s.after env history) :=
    State.leads_moves history s
  constructor
  · rw [hsplit] at hleads
    exact hleads.split.1
  · intro m' hm'
    have hmem : m' ∈ s.moves env history := by
      rw [hsplit]
      exact List.mem_append_left _ hm'
    exact call_ne_run hmem

end Move

/-- A call that neither executes anything nor switches on again reaches only what the host may
touch: memory, the keys and the register that waits for one, the timers and the mark on the
display. -/
theorem Operation.state_perform {op : Operation} (hstep : op ≠ .step)
    (hrun : ∀ cycles, op ≠ .run cycles) (hreset : op ≠ .reset) (s : State) :
    ∃ memory registers keys delay sound dirty waiting, (op.perform env s).state =
      { s with memory, registers, keys, delay, sound, dirty, waiting } := by
  cases op with
  | step => exact absurd rfl hstep
  | run cycles => exact absurd rfl (hrun cycles)
  | reset => exact absurd rfl hreset
  | load program =>
    obtain ⟨memory, hstate⟩ := State.state_load program s
    exact ⟨memory, s.registers, s.keys, s.delay, s.sound, s.dirty, s.waiting, hstate⟩
  | loadFile path =>
    obtain ⟨memory, hstate⟩ := State.state_loadFile env.read env.tracing path s
    exact ⟨memory, s.registers, s.keys, s.delay, s.sound, s.dirty, s.waiting, hstate⟩
  | setKey k held =>
    obtain ⟨keys, hstate⟩ := State.state_setKey k held s
    exact ⟨s.memory, s.registers, keys, s.delay, s.sound, s.dirty, s.waiting, hstate⟩
  | deliverKey k =>
    obtain ⟨registers, waiting, hstate⟩ := State.state_deliverKey k s
    exact ⟨s.memory, registers, s.keys, s.delay, s.sound, s.dirty, waiting, hstate⟩
  | tickTimers => exact ⟨_, _, _, _, _, _, _, rfl⟩
  | clearDirty => exact ⟨_, _, _, _, _, _, _, rfl⟩
  | isDirty | display | report => exact ⟨_, _, _, _, _, _, _, rfl⟩
  | fetch =>
    unfold perform
    cases s.memory.word? s.pc <;> exact ⟨_, _, _, _, _, _, _, rfl⟩

end Chip8Vm
