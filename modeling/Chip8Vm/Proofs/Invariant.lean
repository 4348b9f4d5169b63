import Chip8Vm.Operation

/-!
# Invariants

A property of states that a step keeps is kept by a run, and one that every call of a history
keeps is kept by the history. Runs are made of steps and loading a file is loading its content,
so that `Invariant` asks for seven calls only; `Invariant.after` gives all histories.
-/

namespace Chip8Vm

variable {env : Surroundings} {P : State → Prop}

/-- What each step keeps, a run keeps, however it ends. -/
theorem State.runSteps_keeps {random : Nat → Nat} {tracing : Bool}
    (hstep : ∀ s, P s → P (s.step random tracing).state) (n : Nat) {s : State} (hs : P s) :
    P (s.runSteps random tracing n).state := by
  induction n generalizing s with
  | zero => exact hs
  | succ n ih =>
    have hnext := hstep s hs
    rcases hr : (s.step random tracing).result with f | _ | i
    -- a fault or a wait ends the run with this step
    · simpa only [runSteps, hr] using hnext
    · simpa only [runSteps, hr] using hnext
    · simpa only [runSteps, hr, Reply.state_after] using ih hnext

/-- What each call of a history keeps, the history keeps. -/
theorem State.after_keeps {history : List Operation}
    (hop : ∀ op ∈ history, ∀ s, P s → P (op.perform env s).state) {s : State} (hs : P s) :
    P (s.after env history) := by
  induction history generalizing s with
  | nil => exact hs
  | cons op history ih =>
    have hnext : P (op.perform env s).state := hop op (List.mem_cons_self ..) s hs
    exact ih (fun op' hop' => hop op' (List.mem_cons_of_mem _ hop')) hnext

/-- What the first of some steps sets is what the later ones start from. -/
theorem last_setting_cons {α β : Type} (setting? : α → Option β) (a : α) (later : List α) (start : β) :
    ((a :: later).filterMap setting?).getLast?.getD start =
      (later.filterMap setting?).getLast?.getD ((setting? a).getD start) := by
  cases hset : setting? a with
  | none => rw [List.filterMap_cons_none hset, Option.getD_none]
  | some v => rw [List.filterMap_cons_some hset, List.getLast?_cons, Option.getD_some, Option.getD_some]

/-- Where every operation of a history sets something or leaves it alone, the last setting stays. -/
theorem State.after_last_setting {α : Type} (value : State → α) {setting? : Operation → Option α}
    {history : List Operation} (hop : ∀ op ∈ history, ∀ t,
      value (op.perform env t).state = (setting? op).getD (value t)) (s : State) :
    value (s.after env history) = (history.filterMap setting?).getLast?.getD (value s) := by
  induction history generalizing s with
  | nil => rfl
  | cons op history ih =>
    have hfirst := hop op (List.mem_cons_self ..) s
    have hrest := ih (fun op' hop' => hop op' (List.mem_cons_of_mem _ hop')) (op.perform env s).state
    rw [last_setting_cons, ← hfirst]
    exact hrest

/-- Along a history that keeps a property, every reply is that of its call on a state with the
property. -/
theorem State.replies_keeps {history : List Operation}
    (hop : ∀ op ∈ history, ∀ s, P s → P (op.perform env s).state) {s : State} (hs : P s) :
    ∀ call ∈ history.zip (s.replies env history),
      call.1 ∈ history ∧ ∃ t, P t ∧ call.2 = call.1.perform env t := by
  induction history generalizing s with
  | nil =>
    intro call hcall
    cases hcall
  | cons op history ih =>
    intro call hcall
    rcases List.mem_cons.1 hcall with rfl | hlater
    · exact ⟨List.mem_cons_self .., s, hs, rfl⟩
    · have hnext : P (op.perform env s).state := hop op (List.mem_cons_self ..) s hs
      have hrest := ih (fun op' hop' => hop op' (List.mem_cons_of_mem _ hop')) hnext call hlater
      exact ⟨List.mem_cons_of_mem _ hrest.1, hrest.2⟩

/-- A property of states that a step, a load, the two key calls, a tick, showing the display and
switching on again keep. -/
structure Invariant (env : Surroundings) (P : State → Prop) : Prop where
  step : ∀ s, P s → P (s.step env.random env.tracing).state
  load : ∀ program s, P s → P (s.load program).state
  setKey : ∀ k held s, P s → P (s.setKey k held).state
  deliverKey : ∀ k s, P s → P (s.deliverKey k).state
  tickTimers : ∀ s, P s → P s.tickTimers
  clearDirty : ∀ s, P s → P s.clearDirty
  reset : ∀ s, P s → P s.reset

namespace Invariant

/-- A file that cannot be read changes nothing, and any other loads like its content. -/
theorem loadFile (h : Invariant env P) (path : String) {s : State} (hs : P s) :
    P (s.loadFile env.read env.tracing path).state := by
  unfold State.loadFile
  cases hread : env.read path with
  | error e => exact hs
  | ok program =>
    show P (((s.load program).relabel _ id).note _).state
    rw [Reply.state_note, Reply.state_relabel]
    exact h.load program s hs

theorem perform (h : Invariant env P) (op : Operation) {s : State} (hs : P s) :
    P (op.perform env s).state := by
  cases op with
  | step => exact h.step s hs
  | run cycles => exact State.runSteps_keeps h.step _ hs
  | load program => exact h.load program s hs
  | loadFile path => exact h.loadFile path hs
  | setKey k held => exact h.setKey k held s hs
  | deliverKey k => exact h.deliverKey k s hs
  | tickTimers => exact h.tickTimers s hs
  | clearDirty => exact h.clearDirty s hs
  | reset => exact h.reset s hs
  | isDirty => exact hs
  | display => exact hs
  | fetch =>
    unfold Operation.perform
    cases s.memory.word? s.pc <;> exact hs
  | report => exact hs

/-- An invariant holds after every history of a state that has it. -/
theorem after (h : Invariant env P) (history : List Operation) {s : State} (hs : P s) :
    P (s.after env history) :=
  State.after_keeps (fun op _ _ hs' => h.perform op hs') hs

end Invariant

end Chip8Vm
