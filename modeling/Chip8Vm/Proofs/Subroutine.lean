import Chip8Vm.Proofs.Footprint
import Chip8Vm.Proofs.Moves

/-!
# Subroutines

A call puts the address behind it on the stack, and nothing ever writes on an entry that is in
use. So the entries up to that of a call stay as they are for as long as the stack does not
fall below it, whatever is executed, loaded or pressed meanwhile, and the return that pops the entry
leads behind the call. Since switching on again empties the stack, its depth is the number of
calls executed since then less the number of returns (`call_returns_behind_it`).
-/

namespace Chip8Vm

namespace Instruction

/-- How many of some instructions call a subroutine. -/
def calls (l : List Instruction) : Nat := l.countP (·.op = .call)

/-- How many of some instructions return from a subroutine. -/
def returns (l : List Instruction) : Nat := l.countP (·.op = .ret)

theorem calls_append (l l' : List Instruction) : calls (l ++ l') = calls l + calls l' :=
  List.countP_append

theorem returns_append (l l' : List Instruction) : returns (l ++ l') = returns l + returns l' :=
  List.countP_append

theorem calls_singleton (i : Instruction) : calls [i] = if i.op = .call then 1 else 0 := by
  simp [calls, List.countP_singleton]

theorem returns_singleton (i : Instruction) : returns [i] = if i.op = .ret then 1 else 0 := by
  simp [returns, List.countP_singleton]

end Instruction

namespace State

variable {random : Nat → Nat} {tracing : Bool} {i : Instruction} {s : State}

/-- A call puts the address behind it on the first entry that is not in use. -/
theorem state_step_call (h : (s.step random tracing).result = .ok (some i)) (hop : i.op = .call) :
    ∃ hsp : s.sp < 16, 0 ≤ s.pc ∧ (s.step random tracing).state =
      { s with stack := s.stack.set s.sp (s.pc + 2).toNat, sp := s.sp + 1, pc := i.nnn } := by
  obtain ⟨w, -, hf, -, hk, hstate⟩ := executes_of_result h
  obtain ⟨⟨hpc, -⟩, -⟩ := fetch?_eq_some_iff.1 hf
  cases hcall : { s with pc := s.pc + 2 }.call? i.nnn with
  | none => simp [stackFault?, hop, hcall] at hk
  | some s' =>
    obtain ⟨hsp, rfl⟩ := eq_of_call? hcall
    refine ⟨hsp, hpc, ?_⟩
    rw [hstate, execute, hop]
    simp only [hcall, Reply.ok]

/-- A return leads to the last entry in use. -/
theorem state_step_ret (h : (s.step random tracing).result = .ok (some i)) (hop : i.op = .ret) :
    ∃ k : Fin 16, k.val + 1 = s.sp ∧
      (s.step random tracing).state = { s with sp := k.val, pc := s.stack.get k } := by
  obtain ⟨w, -, -, -, hk, hstate⟩ := executes_of_result h
  cases hret : { s with pc := s.pc + 2 }.return? with
  | none => simp [stackFault?, hop, hret] at hk
  | some s' =>
    obtain ⟨⟨hpos, hroom⟩, rfl⟩ := eq_of_return? hret
    have hlast : s.sp - 1 < 16 := Nat.lt_of_lt_of_le (Nat.sub_one_lt_of_lt hpos) hroom
    refine ⟨⟨s.sp - 1, hlast⟩, Nat.sub_add_cancel hpos, ?_⟩
    rw [hstate, execute, hop]
    simp only [hret, Reply.ok]
    rfl

end State

namespace Move

variable {env : Surroundings} {m : Move}

/-- No move writes on an entry in use, unless it empties the stack altogether. -/
theorem stack_after (hrun : ∀ cycles, m.call ≠ .run cycles) (hreset : m.call ≠ .reset) {k : Fin 16}
    (hk : k.val < m.before.sp) : (m.after env).stack.get k = m.before.stack.get k := by
  by_cases hstep : m.call = .step
  · rw [after_step hstep]
    rcases State.step_executed env.random env.tracing m.before with ⟨i, hres, -⟩ | ⟨-, hsame⟩
    · exact (State.step_footprint hres).stack k fun hpush => Nat.ne_of_lt hk hpush.2
    · rw [hsame]
  · obtain ⟨_, _, _, _, _, _, _, hstate⟩ := m.call.state_perform hstep hrun hreset m.before
    rw [after, reply, hstate]

/-- The stack grows by a call and shrinks by a return. -/
theorem sp_after (hrun : ∀ cycles, m.call ≠ .run cycles) (hreset : m.call ≠ .reset) :
    (m.after env).sp + Instruction.returns (m.executed env) =
      m.before.sp + Instruction.calls (m.executed env) := by
  by_cases hstep : m.call = .step
  · rw [after_step hstep, executed_step hstep]
    rcases State.step_executed env.random env.tracing m.before with ⟨i, hres, hi⟩ | ⟨hi, hsame⟩
    · rw [hi, Instruction.returns_singleton, Instruction.calls_singleton]
      exact (State.step_footprint hres).sp
    · rw [hi, hsame]
      rfl
  · obtain ⟨_, _, _, _, _, _, _, hstate⟩ := m.call.state_perform hstep hrun hreset m.before
    rw [executed_of_ne_step hstep, after, reply, hstate]
    rfl

end Move

namespace State

variable {env : Surroundings} {history : List Operation} {s : State}

/-- An entry in use stays as it is while the stack does not fall below it. -/
theorem stack_visited {k : Fin 16} (hdeep : ∀ t ∈ s.visited env history, k.val < t.sp) :
    ∀ t ∈ s.visited env history, t.stack.get k = s.stack.get k := by
  refine visited_keeps (fun m hm hkept => ?_) rfl
  -- switching on again would empty the stack
  have hreset : m.call ≠ .reset := by
    intro hcall
    have hdeep' := hdeep _ (Move.after_mem_visited hm)
    rw [Move.after, Move.reply, hcall] at hdeep'
    exact Nat.not_lt_zero _ hdeep'
  have hused := hdeep _ (Move.before_mem_visited hm)
  rw [Move.stack_after (Move.call_ne_run hm) hreset hused, hkept]

/-- The depth of the stack counts the calls and returns that are executed. -/
theorem sp_after_history (hreset : .reset ∉ history) :
    (s.after env history).sp + Instruction.returns (s.instructions env history) =
      s.sp + Instruction.calls (s.instructions env history) := by
  refine (leads_moves history s).relates
    (R := fun l s t => t.sp + Instruction.returns l = s.sp + Instruction.calls l)
    (fun _ => rfl) (fun h h' => ?_) (fun m hm => ?_)
  · rw [Instruction.returns_append, Instruction.calls_append]
    omega
  · refine Move.sp_after (Move.call_ne_run hm) fun hcall => ?_
    rcases Move.call_cases hm with hstep | ⟨hmem, -⟩
    · rw [hstep] at hcall
      cases hcall
    · exact hreset (hcall ▸ hmem)

/-- **A subroutine returns behind its call.** As long as the stack does not fall below the entry of a
call, that entry and those below it stay as they are, and a return that pops it leads behind the
call. Since switching on again, the depth of the stack is the number of calls less that of
returns. -/
theorem call_returns_behind_it (env : Surroundings) (s : State) :
    let called := (s.step env.random env.tracing).state
    (∀ i, (s.step env.random env.tracing).result = .ok (some i) → i.op = .call →
      ∃ k : Fin 16, k.val = s.sp ∧
        ∀ history, (∀ t ∈ called.visited env history, k.val + 1 ≤ t.sp) →
          ∀ t ∈ called.visited env history,
            (∀ j ≤ k, t.stack.get j = called.stack.get j) ∧ (t.stack.get k : Int) = s.pc + 2 ∧
              ∀ i', (t.step env.random env.tracing).result = .ok (some i') → i'.op = .ret →
                t.sp = k.val + 1 →
                  (t.step env.random env.tracing).state.pc = s.pc + 2 ∧
                    (t.step env.random env.tracing).state.sp = k.val) ∧
      ∀ history, .reset ∉ history →
        ((s.reset.after env history).sp : Int) =
          Instruction.calls (s.reset.instructions env history) -
            Instruction.returns (s.reset.instructions env history) := by
  intro called
  constructor
  · intro i hres hop
    obtain ⟨hsp, hpc, hcalled⟩ := state_step_call hres hop
    refine ⟨⟨s.sp, hsp⟩, rfl, fun history hdeep t ht => ?_⟩
    have hkept : ∀ j ≤ (⟨s.sp, hsp⟩ : Fin 16), t.stack.get j = called.stack.get j := by
      intro j hj
      exact stack_visited (fun t' ht' => Nat.lt_of_le_of_lt hj (hdeep t' ht')) t ht
    have hentry : (t.stack.get ⟨s.sp, hsp⟩ : Int) = s.pc + 2 := by
      have hpushed : called.stack.get ⟨s.sp, hsp⟩ = (s.pc + 2).toNat := by
        simp only [called, hcalled]
        exact Vector.getElem_set_self hsp
      rw [hkept _ (Fin.le_refl _), hpushed]
      omega
    refine ⟨hkept, hentry, fun i' hres' hop' hlast => ?_⟩
    obtain ⟨k, hk, hreturned⟩ := state_step_ret hres' hop'
    obtain rfl : k = ⟨s.sp, hsp⟩ := Fin.ext (Nat.succ.inj (hk.trans hlast))
    rw [hreturned]
    exact ⟨hentry, rfl⟩
  · intro history hreset
    have hcount : (s.reset.after env history).sp + Instruction.returns _ = _ :=
      sp_after_history hreset
    have hempty : s.reset.sp = 0 := rfl
    omega

/-- A subroutine that has called another one and got back from it: its own return leads behind its
call, and two calls have been executed by then. -/
theorem call_returns_behind_it_nested :
    let env : Surroundings := ⟨fun _ => 0, false, fun _ => .ok []⟩
    let program := [0x22, 0x04, 0x00, 0x00, 0x22, 0x08, 0x00, 0xEE, 0x00, 0xEE]
    let s := ((fresh false).load program).state
    let inner := (s.step env.random env.tracing).state.after env [.run 2]
    (inner.step env.random env.tracing).state.pc = 0x202 ∧
      (inner.step env.random env.tracing).state.sp = 0 ∧
        ((s.reset.after env [.load program, .run 2]).sp : Int) = 2 := by
  intro env program s inner
  have hcall : (s.step env.random env.tracing).executed = [⟨.call, 0x2204⟩] := by decide +kernel
  have hdeep : ∀ t ∈ (s.step env.random env.tracing).state.visited env [.run 2], 1 ≤ t.sp := by
    decide +kernel
  have hret : (inner.step env.random env.tracing).executed = [⟨.ret, 0x00EE⟩] := by decide +kernel
  have hexecuted : s.reset.instructions env [.load program, .run 2] =
      [⟨.call, 0x2204⟩, ⟨.call, 0x2208⟩] := by
    decide +kernel
  obtain ⟨hsub, hcount⟩ := call_returns_behind_it env s
  obtain ⟨k, hk, hreturn⟩ := hsub _ (Reply.result_of_executed hcall) rfl
  have hzero : k = 0 := Fin.ext hk
  subst hzero
  have hlast := hreturn [.run 2] hdeep inner (after_mem_visited [.run 2] _)
  have hback := hlast.2.2 _ (Reply.result_of_executed hret) rfl (by decide +kernel)
  have hdepth := hcount [.load program, .run 2] (by decide)
  rw [hexecuted] at hdepth
  exact ⟨hback.1, hback.2, hdepth⟩

end State

end Chip8Vm
