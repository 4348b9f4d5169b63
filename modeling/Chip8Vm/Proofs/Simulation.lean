import Chip8Vm.Operation
import Chip8Vm.Proofs.Step
import Mathlib.Data.List.Forall2

/-!
# Two machines side by side

A `Simulation` collects what it takes for two machines in a relation `R` to stay in it whatever is
called on them. Most calls neither look at nor touch what may differ between such machines, which is
what `State.Alike` and the field `blind` say; what is left to show of a relation is that each
instruction keeps it, and that the reports of related states are related by `T`. From one step it
goes to a run of any length (`Simulation.step`, `Simulation.runSteps`), from there to one call of any
kind (`Simulation.perform`) and to a history: `Simulation.replies` says that the replies match one by
one.
-/

namespace Chip8Vm

/-- Two machines are the same but for the address register, the stack, the register that a key goes
to and the place in the random source, and a machine that waits hands the key to the same
register. -/
def State.Alike (s t : State) : Prop :=
  ∃ index stack keyRegister drawn, t = { s with index, stack, keyRegister, drawn } ∧
    (s.waiting = true → keyRegister = s.keyRegister)

namespace State.Alike

variable {s t : State} (h : s.Alike t)

include h

theorem waiting : t.waiting = s.waiting := by
  obtain ⟨_, _, _, _, rfl, -⟩ := h
  rfl

theorem pc : t.pc = s.pc := by
  obtain ⟨_, _, _, _, rfl, -⟩ := h
  rfl

theorem fetch? : t.fetch? = s.fetch? := by
  obtain ⟨_, _, _, _, rfl, -⟩ := h
  rfl

theorem stackFault? (i : Instruction) : t.stackFault? i = s.stackFault? i := by
  obtain ⟨_, _, _, _, rfl, -⟩ := h
  exact stackFault?_congr rfl

theorem traceOf (tracing : Bool) (i : Instruction) : t.traceOf tracing i = s.traceOf tracing i := by
  obtain ⟨_, _, _, _, rfl, -⟩ := h
  rfl

end State.Alike

/-- The lines of the two reports are the same, but for one of them. -/
def State.SameLinesBut (k : Nat) (s t : State) : Prop :=
  ∀ j, j ≠ k → s.reportLines[j]? = t.reportLines[j]?

/-- Two steps, or two runs, end in the same way, but for the reports in faults: these are of two
states that `T` relates. -/
inductive SameEnd {α : Type} (T : State → State → Prop) : Except Fault α → Except Fault α → Prop
  | same (o : Except Fault α) : SameEnd T o o
  | fault (f : Fault) {u v : State} (h : T u v) :
    SameEnd T (.error { f with report := u.report }) (.error { f with report := v.report })

/-- Two calls end in the same way, but for the reports in what they say: these are of two states
that `T` relates. -/
inductive SameOutcome (T : State → State → Prop) :
    Except Refusal Answer → Except Refusal Answer → Prop
  | same (o : Except Refusal Answer) : SameOutcome T o o
  | report {u v : State} (h : T u v) :
    SameOutcome T (.ok (.text u.report)) (.ok (.text v.report))
  | fault (f : Fault) {u v : State} (h : T u v) :
    SameOutcome T (.error (.fault { f with report := u.report }))
      (.error (.fault { f with report := v.report }))

/-- Where the reports are the same, nothing differs. -/
theorem SameOutcome.eq {T : State → State → Prop} {o o' : Except Refusal Answer}
    (h : SameOutcome T o o') (hT : ∀ u v, T u v → u.report = v.report) : o = o' := by
  cases h with
  | same => rfl
  | report huv => rw [hT _ _ huv]
  | fault f huv => rw [hT _ _ huv]

/-- Two replies end in ways that `C` relates, leave states that `R` relates and print the same. -/
structure Reply.Matches {ε α : Type} (R : State → State → Prop)
    (C : Except ε α → Except ε α → Prop) (r r' : Reply ε α) : Prop where
  result : C r.result r'.result
  state : R r.state r'.state
  printed : r.printed = r'.printed

namespace Reply.Matches

variable {ε ε' α β : Type} {R T : State → State → Prop} {r r' : Reply ε α}

theorem after {C : Except ε α → Except ε α → Prop} (h : r.Matches R C r') (lines : List String) :
    (r.after lines).Matches R C (r'.after lines) where
  result := h.result
  state := h.state
  printed := congrArg (lines ++ ·) h.printed

theorem note (h : r.Matches R Eq r') (lines : α → List String) :
    (r.note lines).Matches R Eq (r'.note lines) := by
  obtain ⟨hresult, hstate, hprinted⟩ := h
  unfold Reply.note
  rw [hresult]
  cases r'.result with
  | ok a => exact ⟨rfl, hstate, congrArg (· ++ lines a) hprinted⟩
  | error e => exact ⟨hresult, hstate, hprinted⟩

theorem relabel (h : r.Matches R Eq r') (f : ε → ε') (g : α → β) :
    (r.relabel f g).Matches R Eq (r'.relabel f g) where
  result := by rw [Reply.relabel, Reply.relabel, h.result]
  state := h.state
  printed := h.printed

theorem sameOutcome {r r' : Reply Refusal Answer} (h : r.Matches R Eq r') :
    r.Matches R (SameOutcome T) r' where
  result := h.result ▸ .same _
  state := h.state
  printed := h.printed

theorem relabel_fault {r r' : Reply Fault α} (h : r.Matches R (SameEnd T) r') (g : α → Answer) :
    (r.relabel .fault g).Matches R (SameOutcome T) (r'.relabel .fault g) where
  result := by
    obtain ⟨hresult, -, -⟩ := h
    rw [Reply.relabel, Reply.relabel]
    generalize r.result = o at hresult ⊢
    generalize r'.result = o' at hresult ⊢
    cases hresult with
    | same => exact .same _
    | fault f h => exact .fault f h
  state := h.state
  printed := h.printed

end Reply.Matches

/-- A relation of states that every call keeps, on machines with random sources of their own. -/
structure Simulation (random random' : Nat → Nat) (R T : State → State → Prop) : Prop where
  alike : ∀ {s t}, R s t → s.Alike t
  reports : ∀ {s t}, R s t → T s t
  /-- What the machines have in common may change in both together. A wait may end that way but not
  begin, since more must agree in machines that wait. -/
  blind : ∀ {s t}, R s t → ∀ memory registers pc keys delay sound dirty waiting,
    (waiting = true → s.waiting = true) →
      R { s with memory, registers, pc, keys, delay, sound, dirty, waiting }
        { t with memory, registers, pc, keys, delay, sound, dirty, waiting }
  execute : ∀ {s t} {i : Instruction}, R s t → s.stackFault? i = none →
    R (s.execute random i).state (t.execute random' i).state
  reset : ∀ {s t}, R s t → R s.reset t.reset

namespace Simulation

variable {random random' : Nat → Nat} {R T : State → State → Prop}
  (h : Simulation random random' R T) {s t : State}

include h

theorem moveOn (hR : R s t) : R { s with pc := s.pc + 2 } { t with pc := t.pc + 2 } := by
  have hblind :=
    h.blind hR s.memory s.registers (s.pc + 2) s.keys s.delay s.sound s.dirty s.waiting id
  obtain ⟨_, _, _, _, rfl, -⟩ := h.alike hR
  exact hblind

/-- A fault keeps the relation, and its report is of related states. -/
theorem retreat (hR : R s t) (f : Fault) :
    (s.retreat s.pc f).Matches R (SameEnd T) (t.retreat s.pc f) := by
  have hback (u : State) :
      u.retreat u.pc f = ⟨.error { f with pc := u.pc, report := u.report }, u, []⟩ := rfl
  have hpc := (h.alike hR).pc
  rw [hback s, ← hpc, hback t, hpc]
  exact ⟨.fault { f with pc := s.pc } (h.reports hR), hR, rfl⟩

theorem dispatch (hR : R s t) (tracing : Bool) (i : Instruction) :
    (s.dispatch random tracing i).Matches R (SameEnd T) (t.dispatch random' tracing i) := by
  have halike := h.alike hR
  rw [State.dispatch_eq, State.dispatch_eq, halike.stackFault?, halike.traceOf, halike.pc]
  cases hk : s.stackFault? i with
  | none =>
    have hmoved : { s with pc := s.pc + 2 }.stackFault? i = none := by
      rw [← hk]
      exact State.stackFault?_congr rfl
    have hexec := h.execute (h.moveOn hR) hmoved
    rw [halike.pc] at hexec
    exact ⟨.same _, hexec, rfl⟩
  | some kind => exact ⟨.fault ⟨kind, some i.word, s.pc, ""⟩ (h.reports hR), hR, rfl⟩

/-- One step keeps the relation. -/
theorem step (hR : R s t) (tracing : Bool) :
    (s.step random tracing).Matches R (SameEnd T) (t.step random' tracing) := by
  have halike := h.alike hR
  unfold State.step
  rw [halike.waiting, halike.fetch?, halike.pc]
  split
  · exact ⟨.same _, hR, rfl⟩
  · split
    · exact h.retreat hR _
    · split
      · exact h.retreat hR _
      · exact h.dispatch hR tracing _

/-- So does a run, of any length. -/
theorem runSteps (hR : R s t) (tracing : Bool) (n : Nat) :
    (s.runSteps random tracing n).Matches R (SameEnd T) (t.runSteps random' tracing n) := by
  induction n generalizing s t with
  | zero => exact ⟨.same _, hR, rfl⟩
  | succ n ih =>
    obtain ⟨hresult, hstate, hprinted⟩ := h.step hR tracing
    simp only [State.runSteps]
    generalize s.step random tracing = r at hresult hstate hprinted ⊢
    generalize t.step random' tracing = r' at hresult hstate hprinted ⊢
    obtain ⟨o, u, printed⟩ := r
    obtain ⟨o', v, printed'⟩ := r'
    simp only at hresult hstate hprinted ⊢
    cases hresult with
    | fault f hT => exact ⟨.fault f hT, hstate, hprinted⟩
    | same =>
      rcases o with f | _ | i
      · exact ⟨.same _, hstate, hprinted⟩
      · exact ⟨.same _, hstate, hprinted⟩
      · subst hprinted
        exact (ih hstate).after printed

theorem load (hR : R s t) (program : Bytes) : (s.load program).Matches R Eq (t.load program) := by
  have hblind := h.blind hR (s.memory.write Memory.programStart (program.map UInt8.toNat))
    s.registers s.pc s.keys s.delay s.sound s.dirty s.waiting id
  obtain ⟨_, _, _, _, rfl, -⟩ := h.alike hR
  unfold State.load
  split
  · exact ⟨rfl, hblind, rfl⟩
  · exact ⟨rfl, hR, rfl⟩

theorem setKey (hR : R s t) (k : Int) (held : Bool) :
    (s.setKey k held).Matches R Eq (t.setKey k held) := by
  have hblind (keys : Vector Bool 16) :=
    h.blind hR s.memory s.registers s.pc keys s.delay s.sound s.dirty s.waiting id
  obtain ⟨_, _, _, _, rfl, -⟩ := h.alike hR
  unfold State.setKey
  cases key? k with
  | none => exact ⟨rfl, hR, rfl⟩
  | some k => exact ⟨rfl, hblind (s.keys.set k held), rfl⟩

theorem deliverKey (hR : R s t) (k : Int) :
    (s.deliverKey k).Matches R Eq (t.deliverKey k) := by
  have hblind (registers : Vector Nat 16) :=
    h.blind hR s.memory registers s.pc s.keys s.delay s.sound s.dirty false Bool.noConfusion
  obtain ⟨_, _, _, _, rfl, hregister⟩ := h.alike hR
  unfold State.deliverKey
  by_cases hw : s.waiting = true
  · obtain rfl := hregister hw
    simp only [if_pos hw]
    cases key? k with
    | none => exact ⟨rfl, hR, rfl⟩
    | some k => exact ⟨rfl, hblind (s.registers.set s.keyRegister k.val), rfl⟩
  · simp only [if_neg hw]
    exact ⟨rfl, hR, rfl⟩

theorem tickTimers (hR : R s t) : R s.tickTimers t.tickTimers := by
  have hblind :=
    h.blind hR s.memory s.registers s.pc s.keys (s.delay - 1) (s.sound - 1) s.dirty s.waiting id
  obtain ⟨_, _, _, _, rfl, -⟩ := h.alike hR
  exact hblind

theorem clearDirty (hR : R s t) : R s.clearDirty t.clearDirty := by
  have hblind :=
    h.blind hR s.memory s.registers s.pc s.keys s.delay s.sound false s.waiting id
  obtain ⟨_, _, _, _, rfl, -⟩ := h.alike hR
  exact hblind

theorem loadFile (hR : R s t) (read : String → Except ReadError Bytes) (tracing : Bool)
    (path : String) :
    (s.loadFile read tracing path).Matches R Eq (t.loadFile read tracing path) := by
  unfold State.loadFile
  refine Reply.Matches.after ?_ _
  cases read path with
  | error e => exact ⟨rfl, hR, rfl⟩
  | ok program => exact ((h.load hR program).relabel _ _).note _

end Simulation

variable {env : Surroundings} {random : Nat → Nat} {R T : State → State → Prop} {s t : State}

/-- Every call keeps the relation and answers alike. -/
theorem Simulation.perform (h : Simulation env.random random R T) (op : Operation) (hR : R s t) :
    (op.perform env s).Matches R (SameOutcome T) (op.perform { env with random } t) := by
  cases op with
  | step => exact (h.step hR env.tracing).relabel_fault _
  | run cycles => exact (h.runSteps hR env.tracing cycles.toNat).relabel_fault _
  | load program => exact ((h.load hR program).relabel _ _).sameOutcome
  | loadFile path => exact ((h.loadFile hR env.read env.tracing path).relabel _ _).sameOutcome
  | setKey k held => exact ((h.setKey hR k held).relabel _ _).sameOutcome
  | deliverKey k => exact ((h.deliverKey hR k).relabel _ _).sameOutcome
  | tickTimers => exact ⟨.same _, h.tickTimers hR, rfl⟩
  | clearDirty => exact ⟨.same _, h.clearDirty hR, rfl⟩
  | reset => exact ⟨.same _, h.reset hR, rfl⟩
  | report => exact ⟨.report (h.reports hR), hR, Eq.refl []⟩
  | isDirty =>
    obtain ⟨_, _, _, _, rfl, -⟩ := h.alike hR
    exact ⟨.same _, hR, rfl⟩
  | display =>
    obtain ⟨_, _, _, _, rfl, -⟩ := h.alike hR
    exact ⟨.same _, hR, rfl⟩
  | fetch =>
    obtain ⟨_, _, _, _, rfl, -⟩ := h.alike hR
    unfold Operation.perform
    cases s.memory.word? s.pc with
    | none => exact ⟨.same _, hR, rfl⟩
    | some w => exact ⟨.same _, hR, rfl⟩

/-- **Related machines answer alike forever**, and are related after every call. -/
theorem Simulation.replies (h : Simulation env.random random R T) (history : List Operation)
    (hR : R s t) :
    List.Forall₂ (Reply.Matches R (SameOutcome T)) (s.replies env history)
      (t.replies { env with random } history) := by
  induction history generalizing s t with
  | nil => exact .nil
  | cons op history ih =>
    have hcall := h.perform op hR
    exact .cons hcall (ih hcall.state)

end Chip8Vm
