import Chip8Vm.Proofs.Invariant
import Chip8Vm.Proofs.Step

/-!
# Refused calls

A call that is refused has not changed the machine. Only a run may be refused halfway, since it
is many steps. So the machine stands where it stood after a step that faults, and
`State.nextFault?` reads off what the next step has to run into: it looks at the program counter,
the word there and the stack pointer. Counting timers down, pressing keys and showing the display
touch none of these, and a machine that waits does not fault. Hence `refused_call_leaves_machine`:
whatever is called after a fault, short of loading a program or switching on again, every further
step and run ends in that fault.
-/

namespace Chip8Vm

/-- The calls that execute something: a step, or a run of at least one. -/
def Operation.executes : Operation → Bool
  | .step => true
  | .run cycles => 0 < cycles
  | _ => false

/-- The calls after which the program is still the one that was loaded, all but loading another
and switching on again. -/
def Operation.keepsProgram : Operation → Bool
  | .load _ => false
  | .loadFile _ => false
  | .reset => false
  | _ => true

variable {env : Surroundings} {random : Nat → Nat} {tracing : Bool} {s : State} {f : Fault}

namespace State

/-! ## What a refusal leaves -/

/-- A step that faults leaves the machine as it was, also where it had moved on before. -/
theorem state_of_step_error (h : (s.step random tracing).result = .error f) :
    (s.step random tracing).state = s := by
  have hr := step_reply random tracing s
  generalize s.step random tracing = r at hr h ⊢
  cases hr with
  | wait hw => cases h
  | outside hw hf => rfl
  | unknown hw hf hd => rfl
  | stack hw hf hd hk => rfl
  | execute hw hf hd hk => cases h

/-- A program that does not fit is not copied in part. -/
theorem state_of_load_error {program : Bytes} {e : TooLarge}
    (h : (s.load program).result = .error e) : (s.load program).state = s := by
  unfold load at h ⊢
  split at h
  next hfits => cases h
  next hlarge => rw [if_neg hlarge]; rfl

/-- A file is refused because it cannot be read, or because its content does not fit. -/
theorem state_of_loadFile_error {read : String → Except ReadError Bytes} {path : String}
    {e : LoadError} (h : (s.loadFile read tracing path).result = .error e) :
    (s.loadFile read tracing path).state = s := by
  unfold loadFile at h ⊢
  rw [Reply.state_after]
  rw [Reply.result_after] at h
  cases hread : read path with
  | error e' => rfl
  | ok program =>
    -- what is printed around the load does not change its outcome
    simp only [hread] at h
    rw [Reply.result_note] at h
    obtain ⟨e', he, -⟩ := Reply.error_of_relabel h
    show (((s.load program).relabel _ id).note _).state = s
    rw [Reply.state_note, Reply.state_relabel]
    exact state_of_load_error he

theorem state_of_setKey_error {k : Int} {held : Bool} {e : KeyError}
    (h : (s.setKey k held).result = .error e) : (s.setKey k held).state = s := by
  unfold setKey at h ⊢
  cases hk : key? k with
  | none => rfl
  | some k' =>
    rw [hk] at h
    cases h

theorem state_of_deliverKey_error {k : Int} {e : KeyError}
    (h : (s.deliverKey k).result = .error e) : (s.deliverKey k).state = s := by
  unfold deliverKey at h ⊢
  split at h
  next hwait =>
    rw [if_pos hwait]
    cases hk : key? k with
    | none => rfl
    | some k' =>
      rw [hk] at h
      cases h
  next hidle => cases h

end State

/-- A call that is refused leaves the machine as it was, but for a run, which is many calls. -/
theorem Operation.state_of_error {op : Operation} {e : Refusal} (hrun : ∀ cycles, op ≠ .run cycles)
    (h : (op.perform env s).result = .error e) : (op.perform env s).state = s := by
  cases op with
  | step =>
    obtain ⟨f, hf, -⟩ := Reply.error_of_relabel h
    exact State.state_of_step_error hf
  | run cycles => exact absurd rfl (hrun cycles)
  | load program =>
    obtain ⟨e', he, -⟩ := Reply.error_of_relabel h
    exact State.state_of_load_error he
  | loadFile path =>
    obtain ⟨e', he, -⟩ := Reply.error_of_relabel h
    exact State.state_of_loadFile_error he
  | setKey k held =>
    obtain ⟨e', he, -⟩ := Reply.error_of_relabel h
    exact State.state_of_setKey_error he
  | deliverKey k =>
    obtain ⟨e', he, -⟩ := Reply.error_of_relabel h
    exact State.state_of_deliverKey_error he
  | fetch =>
    unfold Operation.perform at h ⊢
    cases hw : s.memory.word? s.pc <;> rfl
  | tickTimers | clearDirty | reset | isDirty | display | report => cases h

namespace State

/-! ## A fault stands -/

/-- The fault that a step runs into unless the machine waits, without a report. -/
def nextFault? (s : State) : Option Fault :=
  match s.fetch? with
  | none => some ⟨.programCounter, none, s.pc, ""⟩
  | some w =>
    match Instruction.lookUp Instruction.table w with
    | none => some ⟨.unknownOpcode, some w, s.pc, ""⟩
    | some i => (s.stackFault? i).map fun kind => ⟨kind, some w, s.pc, ""⟩

/-- The fault ahead depends on nothing but memory, the program counter and the stack pointer. -/
theorem nextFault?_congr {s' : State} (hmem : s.memory = s'.memory) (hpc : s.pc = s'.pc)
    (hsp : s.sp = s'.sp) : s.nextFault? = s'.nextFault? := by
  have hstack (i : Instruction) : s.stackFault? i = s'.stackFault? i := stackFault?_congr hsp
  simp only [nextFault?, fetch?, hmem, hpc, hstack]

/-- The machine does not wait, and the next step runs into this fault. -/
structure Stands (f : Fault) (s : State) : Prop where
  waiting : s.waiting = false
  fault : s.nextFault? = some f

/-- A step that faults was bound to do so. -/
theorem stands_of_step_error (h : (s.step random tracing).result = .error f) :
    s.Stands { f with report := "" } := by
  have hr := step_reply random tracing s
  generalize s.step random tracing = r at hr h
  cases hr with
  | wait hw => cases h
  | outside hw hf =>
    cases h
    exact ⟨hw, by simp only [nextFault?, hf]⟩
  | unknown hw hf hd =>
    cases h
    exact ⟨hw, by simp only [nextFault?, hf, hd]⟩
  | stack hw hf hd hk =>
    cases h
    exact ⟨hw, by simp only [nextFault?, hf, hd, hk, Option.map_some]⟩
  | execute hw hf hd hk => cases h

namespace Stands

variable (h : s.Stands f)

include h

/-- The next step runs into the fault and reports the machine as it stands. -/
theorem result_step (random : Nat → Nat) (tracing : Bool) :
    (s.step random tracing).result = .error { f with report := s.report } := by
  have hr := step_reply random tracing s
  have hfault := h.fault
  generalize s.step random tracing = r at hr ⊢
  cases hr with
  | wait hw => simp [h.waiting] at hw
  | outside hw hf =>
    simp only [nextFault?, hf, Option.some.injEq] at hfault
    rw [← hfault]
    rfl
  | unknown hw hf hd =>
    simp only [nextFault?, hf, hd, Option.some.injEq] at hfault
    rw [← hfault]
    rfl
  | stack hw hf hd hk =>
    simp only [nextFault?, hf, hd, hk, Option.map_some, Option.some.injEq] at hfault
    rw [← hfault]
  | execute hw hf hd hk => simp [nextFault?, hf, hd, hk] at hfault

theorem state_step (random : Nat → Nat) (tracing : Bool) : (s.step random tracing).state = s :=
  state_of_step_error (h.result_step random tracing)

/-- A run ends in the fault at its first step. -/
theorem runSteps_succ (random : Nat → Nat) (tracing : Bool) (n : Nat) :
    (s.runSteps random tracing (n + 1)).result = .error { f with report := s.report } ∧
      (s.runSteps random tracing (n + 1)).state = s := by
  simp only [runSteps, h.result_step]
  exact ⟨trivial, h.state_step random tracing⟩

/-- Every call that executes something ends in the fault, and reports the machine as it leaves
it. -/
theorem result_perform {op : Operation} (hop : op.executes = true) :
    (op.perform env s).result =
      .error (.fault { f with report := (op.perform env s).state.report }) := by
  cases op with
  | step =>
    have hstate : (Operation.step.perform env s).state = s := h.state_step env.random env.tracing
    rw [hstate]
    exact Reply.result_relabel_error _ _ (h.result_step env.random env.tracing)
  | run cycles =>
    have hpos : 0 < cycles := of_decide_eq_true hop
    obtain ⟨n, hn⟩ : ∃ n, cycles.toNat = n + 1 := ⟨cycles.toNat - 1, by omega⟩
    have hrun := h.runSteps_succ env.random env.tracing n
    rw [← hn] at hrun
    have hstate : ((Operation.run cycles).perform env s).state = s := hrun.2
    rw [hstate]
    exact Reply.result_relabel_error _ _ hrun.1
  | _ => cases hop

/-- What touches neither memory nor the program counter nor the stack leaves the fault ahead. -/
theorem of_eq {s' : State} (hwait : s'.waiting = s.waiting) (hmem : s'.memory = s.memory)
    (hpc : s'.pc = s.pc) (hsp : s'.sp = s.sp) : s'.Stands f where
  waiting := hwait.trans h.waiting
  fault := (nextFault?_congr hmem hpc hsp).trans h.fault

/-- No call gets the machine past the fault but loading a program and switching on again. -/
theorem perform {op : Operation} (hop : op.keepsProgram = true) :
    (op.perform env s).state.Stands f := by
  cases op with
  | step =>
    have hstate : (Operation.step.perform env s).state = s := h.state_step env.random env.tracing
    rwa [hstate]
  | run cycles =>
    show (s.runSteps env.random env.tracing cycles.toNat).state.Stands f
    cases cycles.toNat with
    | zero => exact h
    | succ n => rwa [(h.runSteps_succ env.random env.tracing n).2]
  | setKey k held =>
    obtain ⟨keys, hstate⟩ := state_setKey k held s
    show (s.setKey k held).state.Stands f
    rw [hstate]
    exact h.of_eq rfl rfl rfl rfl
  | deliverKey k =>
    -- nobody waits for the key
    show (s.deliverKey k).state.Stands f
    rwa [deliverKey_not_waiting k h.waiting]
  | tickTimers => exact h.of_eq rfl rfl rfl rfl
  | clearDirty => exact h.of_eq rfl rfl rfl rfl
  | isDirty | display | report => exact h
  | fetch =>
    unfold Operation.perform
    cases s.memory.word? s.pc <;> exact h
  | load | loadFile | reset => cases hop

end Stands

/-- **A call that is refused leaves the machine as it was, and a fault stands.** After a step that
faults, and after any further calls short of loading a program and switching on again, every step
and every run of at least one step ends in the same fault; only the report is of the machine as
it is by then. -/
theorem refused_call_leaves_machine (s : State) :
    (∀ (env : Surroundings) (op : Operation) (e : Refusal), (∀ cycles, op ≠ .run cycles) →
      (op.perform env s).result = .error e → (op.perform env s).state = s) ∧
    ∀ (random : Nat → Nat) (tracing : Bool) (f : Fault),
      (s.step random tracing).result = .error f →
        ∀ (env : Surroundings) (history : List Operation),
          (∀ op ∈ history, op.keepsProgram = true) →
            ∀ call ∈ history.zip ((s.step random tracing).state.replies env history),
              call.1.executes = true →
                call.2.result = .error (.fault { f with report := call.2.state.report }) := by
  refine ⟨fun env op e hrun he => Operation.state_of_error hrun he, ?_⟩
  intro random tracing f hf env history hkeeps call hcall hexec
  -- the report is left out of what stands, since it is made anew each time
  have hstands : (s.step random tracing).state.Stands { f with report := "" } := by
    rw [state_of_step_error hf]
    exact stands_of_step_error hf
  have hop : ∀ op ∈ history, ∀ t : State, t.Stands { f with report := "" } →
      (op.perform env t).state.Stands { f with report := "" } :=
    fun op hop t ht => ht.perform (hkeeps op hop)
  obtain ⟨-, t, ht, hreply⟩ := replies_keeps hop hstands call hcall
  rw [hreply]
  exact ht.result_perform hexec

/-- A return at the very start of a program: a wrong key changes nothing, and a tick of the timers
does not mend the fault. -/
theorem refused_call_leaves_machine_lone_return :
    let env : Surroundings := ⟨fun _ => 0, false, fun _ => .ok []⟩
    let s := ((fresh false).load [0x00, 0xEE]).state
    ((Operation.setKey 16 true).perform env s).state = s ∧
      ∃ report, ((Operation.run 3).perform env s.tickTimers).result =
        .error (.fault ⟨.stackUnderflow, some 0x00EE, 0x200, report⟩) := by
  intro env s
  have hstands : s.Stands ⟨.stackUnderflow, some 0x00EE, 0x200, ""⟩ :=
    ⟨by decide +kernel, by decide +kernel⟩
  have hfault := hstands.result_step env.random env.tracing
  have hall := refused_call_leaves_machine s
  refine ⟨hall.1 env (.setKey 16 true) (.key (.index 16)) (by simp) rfl, ?_⟩
  have hcalls := hall.2 env.random env.tracing _ hfault env [.tickTimers, .run 3] (by decide)
  rw [hstands.state_step] at hcalls
  exact ⟨_, hcalls (.run 3, _) (List.mem_cons_of_mem _ (List.mem_cons_self ..)) rfl⟩

end State

end Chip8Vm
