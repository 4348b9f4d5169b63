import Chip8Vm.Proofs.Footprint
import Chip8Vm.Proofs.Invariant
import Chip8Vm.Proofs.Moves
import Chip8Vm.Proofs.Reset

/-!
# Random bytes

One instruction draws a random byte, and each time that it is executed it draws the next one. So
the place in the random source is a count of these instructions (`Leads.drawn`), through waits,
faults and switching on again, and an instruction that `k` others have come before finds the byte
`k` places further on. No byte is looked at before it is drawn: with two sources that give the same
bytes up to where a history gets, `SameBytes`, every step of it is the same (`step_congr`), and
hence every reply. `draws_one_byte_each` puts this together.
-/

namespace Chip8Vm

namespace Instruction

/-- How many of some instructions draw a random byte. -/
def draws (l : List Instruction) : Nat := l.countP (·.op = .random)

theorem draws_append (l l' : List Instruction) : draws (l ++ l') = draws l + draws l' :=
  List.countP_append

theorem draws_singleton (i : Instruction) : draws [i] = if i.op = .random then 1 else 0 := by
  simp [draws, List.countP_singleton]

end Instruction

/-- Two random sources give the same bytes from one place on, up to another. -/
def SameBytes (random random' : Nat → Nat) (first last : Nat) : Prop :=
  ∀ k, first ≤ k → k < last → random' k = random k

theorem SameBytes.mono {random random' : Nat → Nat} {first last first' last' : Nat}
    (h : SameBytes random random' first last) (hfirst : first ≤ first') (hlast : last' ≤ last) :
    SameBytes random random' first' last' :=
  fun k hk hk' => h k (Nat.le_trans hfirst hk) (Nat.lt_of_lt_of_le hk' hlast)

variable {env : Surroundings} {random random' : Nat → Nat} {tracing : Bool} {i : Instruction}
  {s t : State}

/-! ## Counting -/

namespace State

theorem drawn_step (random : Nat → Nat) (tracing : Bool) (s : State) :
    (s.step random tracing).state.drawn =
      s.drawn + Instruction.draws (s.step random tracing).executed := by
  rcases step_executed random tracing s with ⟨i, hres, hi⟩ | ⟨hi, hsame⟩
  · rw [hi, Instruction.draws_singleton]
    exact (step_footprint hres).drawn
  · rw [hi, hsame]
    rfl

/-- What is drawn goes to the register of the instruction, as far as its mask lets it through. -/
theorem reg_step_random (h : (s.step random tracing).result = .ok (some i)) (hop : i.op = .random) :
    (s.step random tracing).state.reg i.x = random s.drawn &&& i.kk := by
  obtain ⟨w, -, -, -, -, hstate⟩ := executes_of_result h
  rw [hstate, execute, hop]
  exact (reg_setReg ..).trans (if_pos rfl)

end State

/-- A move draws as many random bytes as instructions that draw one. -/
theorem Move.drawn_after {m : Move} (hrun : ∀ cycles, m.call ≠ .run cycles) :
    (m.after env).drawn = m.before.drawn + Instruction.draws (m.executed env) := by
  by_cases hstep : m.call = .step
  · rw [after_step hstep, executed_step hstep]
    exact State.drawn_step env.random env.tracing m.before
  rw [executed_of_ne_step hstep, after, reply]
  by_cases hreset : m.call = .reset
  · rw [hreset]
    rfl
  · obtain ⟨_, _, _, _, _, _, _, hstate⟩ := m.call.state_perform hstep hrun hreset m.before
    rw [hstate]
    rfl

/-- So do any number of moves. -/
theorem Leads.drawn {l : List Move} (h : Leads env s l t)
    (hrun : ∀ m ∈ l, ∀ cycles, m.call ≠ .run cycles) :
    t.drawn = s.drawn + Instruction.draws (l.flatMap (·.executed env)) := by
  refine h.relates (R := fun l s t => t.drawn = s.drawn + Instruction.draws l) (fun _ => rfl) ?_
    fun m hm => Move.drawn_after (hrun m hm)
  intro l l' s s' s'' hfirst hrest
  rw [hrest, hfirst, Instruction.draws_append, Nat.add_assoc]

/-! ## Two sources -/

namespace State

theorem drawn_le_step (random : Nat → Nat) (tracing : Bool) (s : State) :
    s.drawn ≤ (s.step random tracing).state.drawn := by
  rw [drawn_step]
  exact Nat.le_add_right ..

theorem drawn_le_runSteps (random : Nat → Nat) (tracing : Bool) (n : Nat) (s : State) :
    s.drawn ≤ (s.runSteps random tracing n).state.drawn :=
  runSteps_keeps (P := fun t => s.drawn ≤ t.drawn)
    (fun t ht => Nat.le_trans ht (drawn_le_step random tracing t)) n (Nat.le_refl _)

/-- Bytes that have been drawn are not put back. -/
theorem invariant_drawn (env : Surroundings) (n : Nat) : Invariant env fun s => n ≤ s.drawn where
  step s hn := Nat.le_trans hn (drawn_le_step env.random env.tracing s)
  load program s hn := by
    obtain ⟨memory, hstate⟩ := state_load program s
    rwa [hstate]
  setKey k held s hn := by
    obtain ⟨keys, hstate⟩ := state_setKey k held s
    rwa [hstate]
  deliverKey k s hn := by
    obtain ⟨registers, waiting, hstate⟩ := state_deliverKey k s
    rwa [hstate]
  tickTimers _ hn := hn
  clearDirty _ hn := hn
  reset _ hn := hn

/-- An instruction looks at no other byte than the one it draws. -/
theorem execute_congr (h : i.op = .random → random' s.drawn = random s.drawn) :
    s.execute random' i = s.execute random i := by
  by_cases hop : i.op = .random
  · simp only [execute, drawRandom, hop, h hop]
  · exact execute_random_congr random' random hop s

theorem dispatch_congr
    (h : SameBytes random random' s.drawn (s.dispatch random tracing i).state.drawn) :
    s.dispatch random' tracing i = s.dispatch random tracing i := by
  have hbyte : i.op = .random → random' s.drawn = random s.drawn := by
    intro hop
    refine h s.drawn (Nat.le_refl _) ?_
    have hstack : s.stackFault? i = none := by simp [stackFault?, hop]
    rw [dispatch_eq, hstack, execute, hop]
    exact Nat.lt_succ_self _
  unfold dispatch
  rw [execute_congr (s := { s with pc := s.pc + 2 }) hbyte]

/-- A step is the same with two sources that give the same bytes up to where it gets. -/
theorem step_congr (h : SameBytes random random' s.drawn (s.step random tracing).state.drawn) :
    s.step random' tracing = s.step random tracing := by
  unfold step at h ⊢
  by_cases hw : s.waiting = true
  · rw [if_pos hw, if_pos hw]
  rw [if_neg hw] at h ⊢
  rw [if_neg hw]
  cases hf : s.fetch? with
  | none => rfl
  | some w =>
    rw [hf] at h
    cases hd : Instruction.decode w s.pc with
    | error f => simp only [hd]
    | ok i =>
      simp only [hd] at h ⊢
      exact dispatch_congr h

theorem runSteps_congr (n : Nat)
    (h : SameBytes random random' s.drawn (s.runSteps random tracing n).state.drawn) :
    s.runSteps random' tracing n = s.runSteps random tracing n := by
  induction n generalizing s with
  | zero => rfl
  | succ n ih =>
    rcases hr : (s.step random tracing).result with f | _ | i
    -- a fault or a wait ends the run with this step
    · simp only [runSteps, hr] at h
      simp only [runSteps, step_congr h, hr]
    · simp only [runSteps, hr] at h
      simp only [runSteps, step_congr h, hr]
    · simp only [runSteps, hr, Reply.state_after] at h
      have hfirst := h.mono (Nat.le_refl _) (drawn_le_runSteps random tracing n _)
      have hrest := h.mono (drawn_le_step random tracing s) (Nat.le_refl _)
      simp only [runSteps, step_congr hfirst, hr, ih hrest]

end State

/-- A call is the same with two sources that give the same bytes up to where it gets. -/
theorem Operation.perform_congr (op : Operation)
    (h : SameBytes env.random random' s.drawn (op.perform env s).state.drawn) :
    op.perform { env with random := random' } s = op.perform env s := by
  cases op with
  | step => exact congrArg (Reply.relabel _ _) (State.step_congr h)
  | run cycles => exact congrArg (Reply.relabel _ _) (State.runSteps_congr cycles.toNat h)
  | _ => rfl

namespace State

theorem replies_congr (history : List Operation)
    (h : SameBytes env.random random' s.drawn (s.after env history).drawn) :
    s.replies { env with random := random' } history = s.replies env history := by
  induction history generalizing s with
  | nil => rfl
  | cons op history ih =>
    -- the bytes of the history are those of its first call and those of the rest
    have hmiddle := (invariant_drawn env s.drawn).perform op (Nat.le_refl _)
    have hend := (invariant_drawn env (op.perform env s).state.drawn).after history (Nat.le_refl _)
    have hfirst := h.mono (Nat.le_refl _) hend
    have hrest := h.mono hmiddle (Nat.le_refl _)
    simp only [replies, op.perform_congr hfirst, ih hrest]

/-- **Each instruction that draws a random byte draws one, and nothing else does.** Along a history
as many bytes are drawn as such instructions are executed, and the one after `k` others masks the
byte `k` places on from the start, whatever comes between them. A history does not depend on the
bytes that it has not drawn. -/
theorem draws_one_byte_each (env : Surroundings) (s : State) (history : List Operation) :
    (s.after env history).drawn = s.drawn + Instruction.draws (s.instructions env history) ∧
    (∀ past m later i, s.moves env history = past ++ m :: later →
      m.executed env = [i] → i.op = .random →
        (m.after env).reg i.x =
          env.random (s.drawn + Instruction.draws (past.flatMap (·.executed env))) &&& i.kk) ∧
    ∀ random' : Nat → Nat, SameBytes env.random random' s.drawn (s.after env history).drawn →
      s.replies { env with random := random' } history = s.replies env history := by
  refine ⟨(leads_moves history s).drawn fun m hm => Move.call_ne_run hm, ?_,
    fun random' h => replies_congr history h⟩
  intro past m later i hsplit hexec hop
  obtain ⟨hstep, hres⟩ := Move.result_step_of_executed hexec
  obtain ⟨hleads, hrun⟩ := Move.leads_past hsplit
  rw [Move.after_step hstep, reg_step_random hres hop, hleads.drawn hrun]

/-- Two bytes are drawn, the machine waits for a key and is switched on again, and the next
instruction that draws a byte gets the third one; of the fourth nothing is known by then. -/
theorem draws_one_byte_each_across_reset :
    let env : Surroundings := ⟨fun k => 100 + k, false, fun _ => .ok []⟩
    let history : List Operation :=
      [.load [0xC1, 0xFF, 0xC2, 0xFF, 0xF3, 0x0A], .run 5, .reset, .load [0xC4, 0x0F], .step]
    let s := fresh false
    (∃ m, (s.moves env history).getLast? = some m ∧ (m.after env).reg 4 = 102 &&& 0x0F) ∧
      s.replies { env with random := fun k => if k < 3 then 100 + k else 0 } history =
        s.replies env history := by
  intro env history s
  obtain ⟨-, hbyte, hsame⟩ := draws_one_byte_each env s history
  have ⟨hlast, hdraws, hthree⟩ :
      (s.moves env history).getLast?.map (·.executed env) = some [⟨.random, 0xC40F⟩] ∧
      Instruction.draws ((s.moves env history).dropLast.flatMap (·.executed env)) = 2 ∧
      (s.after env history).drawn = 3 := by
    decide +kernel
  obtain ⟨m, hm, hexec⟩ := Option.map_eq_some_iff.1 hlast
  obtain ⟨past, hsplit⟩ := List.getLast?_eq_some_iff.1 hm
  refine ⟨⟨m, hm, ?_⟩, hsame _ fun k _ hk => ?_⟩
  · rw [hsplit, List.dropLast_concat] at hdraws
    have hreg := hbyte past m [] _ hsplit hexec rfl
    rwa [hdraws] at hreg
  · rw [hthree] at hk
    exact if_pos hk

end State

end Chip8Vm
