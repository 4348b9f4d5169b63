import Chip8Vm.Proofs.KeyWait

/-!
# Runs in slices

A host need not run the machine in one go. Runs one after the other, up to the first one that
faults, come to one run of their whole length (`runSlices_eq_run`): a run that has used up its
cycles is taken up where it has stopped (`runSteps_add`), one that has come to a wait does nothing
any more, and after one that has faulted there is none. A slice that has neither faulted nor
executed as many instructions as it was given cycles has come to a wait (`waiting_or_length`).
-/

namespace Chip8Vm

namespace Reply

variable {ε : Type}

/-- A call and then, unless it is refused, another one on the state that it leaves. -/
def andThen (r : Reply ε Unit) (next : State → Reply ε Unit) : Reply ε Unit :=
  match r.result with
  | .ok () => (next r.state).after r.printed
  | .error _ => r

theorem andThen_after (lines : List String) (r : Reply ε Unit) (next : State → Reply ε Unit) :
    (r.after lines).andThen next = (r.andThen next).after lines := by
  unfold andThen
  rw [result_after]
  cases r.result with
  | ok _ => simp only [after, List.append_assoc]
  | error e => rfl

theorem ok_andThen (s : State) (next : State → Reply ε Unit) :
    (ok () s).andThen next = next s := rfl

end Reply

/-- How many cycles some runs have together; one that is not given a positive number has none. -/
def totalCycles : List Int → Int
  | [] => 0
  | cycles :: slices =>
    if 0 < cycles then cycles + totalCycles slices else totalCycles slices

theorem totalCycles_cons (cycles : Int) (slices : List Int) :
    totalCycles (cycles :: slices) = max 0 cycles + totalCycles slices := by
  rw [totalCycles]
  split <;> omega

theorem totalCycles_nonneg (slices : List Int) : 0 ≤ totalCycles slices := by
  induction slices with
  | nil => exact Int.le_refl 0
  | cons cycles slices ih =>
    rw [totalCycles_cons]
    omega

namespace State

variable {random : Nat → Nat} {tracing : Bool} {s : State}

/-- Runs one after the other, up to and including the first one that faults. -/
def runSlices (random : Nat → Nat) (tracing : Bool) : List Int → State → Reply Fault Unit
  | [], s => .ok () s
  | cycles :: slices, s =>
    (s.run random tracing cycles).andThen fun t => runSlices random tracing slices t

/-- Only a machine that waits gives no instruction to a step. -/
theorem waiting_of_result_none (h : (s.step random tracing).result = .ok none) :
    s.waiting = true := by
  cases hw : s.waiting with
  | true => rfl
  | false => exact absurd h (result_step_ne_none random tracing hw)

/-- However many steps a waiting machine is given, it waits. -/
theorem runSteps_waiting (n : Nat) (h : s.waiting = true) :
    s.runSteps random tracing n = .ok () s := by
  have hrun : s.run random tracing n = .ok () s := run_waiting h
  exact hrun

/-- A run can be broken off after any number of steps and taken up again. -/
theorem runSteps_add (random : Nat → Nat) (tracing : Bool) (m n : Nat) (s : State) :
    s.runSteps random tracing (m + n) =
      (s.runSteps random tracing m).andThen fun t => t.runSteps random tracing n := by
  induction m generalizing s with
  | zero => rw [Nat.zero_add, runSteps, Reply.ok_andThen]
  | succ m ih =>
    rw [Nat.succ_add]
    rcases hr : (s.step random tracing).result with f | _ | i
    · simp only [runSteps, hr, Reply.andThen]
    · have hwait := waiting_of_result_none hr
      rw [runSteps_waiting _ hwait, runSteps_waiting _ hwait, Reply.ok_andThen,
        runSteps_waiting _ hwait]
    · simp only [runSteps, hr, ih, Reply.andThen_after]

/-- A run that has not faulted has come to a wait, or it has executed as many instructions as it has
taken steps. -/
theorem waiting_or_length {n : Nat} (h : (s.runSteps random tracing n).result = .ok ()) :
    (s.runSteps random tracing n).state.waiting = true ∨
      ((s.runStates random tracing n).flatMap fun t => (t.step random tracing).executed).length =
        n := by
  induction n generalizing s with
  | zero => exact .inr rfl
  | succ n ih =>
    rcases hr : (s.step random tracing).result with f | _ | i
    · simp [runSteps, hr] at h
    · have hwait := waiting_of_result_none hr
      rw [runSteps_waiting _ hwait]
      exact .inl hwait
    · have hfirst : (s.step random tracing).executed = [i] := by simp [Reply.executed, hr]
      simp only [runSteps, hr, Reply.result_after] at h
      simp only [runSteps, runStates, hr, Reply.state_after, List.flatMap_cons, hfirst,
        List.singleton_append, List.length_cons, Nat.add_right_cancel_iff]
      exact ih h

/-- Runs one after the other are one run. -/
theorem runSlices_eq (random : Nat → Nat) (tracing : Bool) (slices : List Int) (s : State) :
    s.runSlices random tracing slices = s.run random tracing (totalCycles slices) := by
  induction slices generalizing s with
  | nil => rfl
  | cons cycles slices ih =>
    have hnonneg := totalCycles_nonneg slices
    have hcount : (totalCycles (cycles :: slices)).toNat =
        cycles.toNat + (totalCycles slices).toNat := by
      rw [totalCycles_cons]
      omega
    simp only [runSlices, ih, run, hcount, runSteps_add]

/-- **A run may be cut into slices.** Runs one after the other, up to and including the first one
that faults, come to the same result, the same state and the same printed lines as one run of all
their cycles. A run that ends without a fault before it has executed as many instructions as it was
given cycles leaves the machine waiting for a key, and a machine that waits is left alone by every
run. -/
theorem runSlices_eq_run (env : Surroundings) (s : State) :
    (∀ slices : List Int, s.runSlices env.random env.tracing slices =
      s.run env.random env.tracing (totalCycles slices)) ∧
    (∀ cycles : Int, (s.run env.random env.tracing cycles).result = .ok () →
      ((s.instructions env [.run cycles]).length : Int) < max 0 cycles →
        (s.run env.random env.tracing cycles).state.waiting = true) ∧
    (s.waiting = true → ∀ cycles : Int, s.run env.random env.tracing cycles = .ok () s) := by
  refine ⟨fun slices => runSlices_eq env.random env.tracing slices s, ?_,
    fun hwait cycles => run_waiting hwait⟩
  intro cycles hresult hfew
  have hmoves : s.instructions env [.run cycles] =
      (s.runStates env.random env.tracing cycles.toNat).flatMap fun t =>
        (t.step env.random env.tracing).executed := by
    simp only [instructions, moves, Operation.moves, List.append_nil, List.flatMap_map,
      Move.executed]
  rcases waiting_or_length hresult with hwait | hall
  · exact hwait
  · rw [hmoves, hall] at hfew
    omega

/-- A program of two instructions, the second of which awaits a key: three slices come to one run
of six cycles, a run of five comes to the wait after two of them, and from there no run gets
further. -/
theorem runSlices_eq_run_awaiting :
    let env : Surroundings := ⟨fun _ => 0, true, fun _ => .ok []⟩
    let s := ((fresh false).load [0x61, 0x05, 0xF2, 0x0A]).state
    let t := (s.run env.random env.tracing 5).state
    s.runSlices env.random env.tracing [1, -3, 5] = s.run env.random env.tracing 6 ∧
      t.waiting = true ∧ t.run env.random env.tracing 7 = .ok () t := by
  intro env s t
  obtain ⟨hslices, hshort, -⟩ := runSlices_eq_run env s
  have hwait : t.waiting = true := by
    have ⟨hresult, hfew⟩ : (s.run env.random env.tracing 5).result.isOk = true ∧
        ((s.instructions env [.run 5]).length : Int) < max 0 5 := by
      decide +kernel
    refine hshort 5 ?_ hfew
    cases hr : (s.run env.random env.tracing 5).result with
    | ok _ => rfl
    | error f => simp [hr, Except.isOk, Except.toBool] at hresult
  exact ⟨hslices [1, -3, 5], hwait, (runSlices_eq_run env t).2.2 hwait 7⟩

end State

end Chip8Vm
