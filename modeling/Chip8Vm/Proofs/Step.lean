import Chip8Vm.Step

/-!
# What a step can do

An instruction fails only on the stack, and then before it has changed anything
(`execute_eq`). So a step takes one of five ways, which `StepReply` lists with the
whole reply of each and `step_reply` shows to be all: the machine waits, the program counter has
left memory, the word is unknown, the stack refuses, or an instruction is executed. On the three
ways that end in a fault the state is the one before the step, and so is the reported one.
-/

namespace Chip8Vm

/-- The instruction that a step has executed, if it has executed one. -/
def Reply.executed (r : Reply Fault (Option Instruction)) : List Instruction :=
  match r.result with
  | .ok (some i) => [i]
  | _ => []

theorem Reply.result_of_executed {r : Reply Fault (Option Instruction)} {i : Instruction}
    (h : r.executed = [i]) : r.result = .ok (some i) := by
  unfold executed at h
  split at h
  next j hr => rw [hr, List.singleton_inj.1 h]
  next => cases h

namespace State

variable {random : Nat → Nat} {tracing : Bool} {i : Instruction} {s : State} {f : Fault}

/-- The way an instruction fails on the stack, if it does. -/
def stackFault? (i : Instruction) (s : State) : Option Fault.Kind :=
  match i.op with
  | .ret => if s.return? = none then some .stackUnderflow else none
  | .call => if s.call? i.nnn = none then some .stackOverflow else none
  | _ => none

/-- The stack is full at sixteen entries and empty at none. -/
theorem stackFault?_eq (hsp : s.sp ≤ 16) :
    s.stackFault? i =
      if i.op = .call ∧ s.sp = 16 then some .stackOverflow
      else if i.op = .ret ∧ s.sp = 0 then some .stackUnderflow
      else none := by
  have hfull : 16 ≤ s.sp ↔ s.sp = 16 := by omega
  have hempty : s.sp = 0 ∨ 16 < s.sp ↔ s.sp = 0 := by omega
  unfold stackFault?
  cases i.op <;> simp [call?_eq_none_iff, return?_eq_none_iff, hfull, hempty]

/-- Whether the stack refuses depends on nothing but how full it is. -/
theorem stackFault?_congr {s' : State} (hsp : s.sp = s'.sp) :
    s.stackFault? i = s'.stackFault? i := by
  unfold stackFault?
  cases i.op <;> simp [call?_eq_none_iff, return?_eq_none_iff, hsp]

/-- An instruction fails only on the stack; then it names itself and has not changed anything. -/
theorem execute_eq (random : Nat → Nat) (i : Instruction) (s : State) :
    s.execute random i =
      match s.stackFault? i with
      | none => .ok () (s.execute random i).state
      | some kind => .refuse ⟨kind, some i.word, s.pc - 2, ""⟩ s := by
  unfold execute stackFault?
  cases hop : i.op with
  | ret => cases hr : s.return? <;> simp [Reply.ok, Reply.refuse]
  | call => cases hc : s.call? i.nnn <;> simp [Reply.ok, Reply.refuse]
  -- nothing else can fail
  | _ => rfl

/-- The replies that a step can give. -/
inductive StepReply (random : Nat → Nat) (tracing : Bool) (s : State) :
    Reply Fault (Option Instruction) → Prop
  | wait (hw : s.waiting = true) : StepReply random tracing s (.ok none s)
  | outside (hw : s.waiting = false) (hf : s.fetch? = none) :
    StepReply random tracing s (.refuse ⟨.programCounter, none, s.pc, s.report⟩ s)
  | unknown {w : Nat} (hw : s.waiting = false) (hf : s.fetch? = some w)
    (hd : Instruction.lookUp Instruction.table w = none) :
    StepReply random tracing s (.refuse ⟨.unknownOpcode, some w, s.pc, s.report⟩ s)
  | stack {w : Nat} {i : Instruction} {kind : Fault.Kind} (hw : s.waiting = false)
    (hf : s.fetch? = some w) (hd : Instruction.lookUp Instruction.table w = some i)
    (hk : s.stackFault? i = some kind) :
    StepReply random tracing s ⟨.error ⟨kind, some w, s.pc, s.report⟩, s, s.traceOf tracing i⟩
  | execute {w : Nat} {i : Instruction} (hw : s.waiting = false) (hf : s.fetch? = some w)
    (hd : Instruction.lookUp Instruction.table w = some i)
    (hk : s.stackFault? i = none) :
    StepReply random tracing s
      ⟨.ok (some i), ({ s with pc := s.pc + 2 }.execute random i).state, s.traceOf tracing i⟩

/-- Going back undoes the move to the next instruction. -/
theorem retreat_advanced (f : Fault) (s : State) :
    { s with pc := s.pc + 2 }.retreat s.pc f =
      .refuse { f with pc := s.pc, report := s.report } s := rfl

/-- What a decoded instruction replies, by whether the stack refuses it. -/
theorem dispatch_eq (random : Nat → Nat) (tracing : Bool) (i : Instruction) (s : State) :
    s.dispatch random tracing i =
      match s.stackFault? i with
      | none =>
        ⟨.ok (some i), ({ s with pc := s.pc + 2 }.execute random i).state, s.traceOf tracing i⟩
      | some kind => ⟨.error ⟨kind, some i.word, s.pc, s.report⟩, s, s.traceOf tracing i⟩ := by
  -- the stack is looked at after the move to the next instruction, which does not touch it
  have hmoved : { s with pc := s.pc + 2 }.stackFault? i = s.stackFault? i := stackFault?_congr rfl
  have he := execute_eq random i { s with pc := s.pc + 2 }
  rw [hmoved] at he
  unfold dispatch
  cases hk : s.stackFault? i with
  | none =>
    rw [hk] at he
    rw [he]
    simp [Reply.ok, Reply.after]
  | some kind =>
    rw [hk] at he
    rw [he]
    simp [Reply.refuse, retreat_advanced, Reply.after]

/-- **A step gives one of these replies.** -/
theorem step_reply (random : Nat → Nat) (tracing : Bool) (s : State) :
    StepReply random tracing s (s.step random tracing) := by
  unfold step
  by_cases hw : s.waiting = true
  · rw [if_pos hw]
    exact .wait hw
  have hw' : s.waiting = false := by simpa using hw
  rw [if_neg hw]
  cases hf : s.fetch? with
  | none => exact .outside hw' hf
  | some w =>
    cases hd : Instruction.lookUp Instruction.table w with
    | none =>
      simp only [Instruction.decode, Instruction.decodeBy, hd]
      exact .unknown hw' hf hd
    | some i =>
      simp only [Instruction.decode, Instruction.decodeBy, hd, dispatch_eq]
      cases hk : s.stackFault? i with
      | none => exact .execute hw' hf hd hk
      | some kind =>
        rw [Instruction.word_of_lookUp hd]
        exact .stack hw' hf hd hk

/-- A machine that does not wait executes the instruction it points at, if the stack does not
refuse it. -/
theorem step_of_fetch? {w : Nat} (hw : s.waiting = false) (hf : s.fetch? = some w)
    (hd : Instruction.lookUp Instruction.table w = some i) (hk : s.stackFault? i = none) :
    s.step random tracing =
      ⟨.ok (some i), ({ s with pc := s.pc + 2 }.execute random i).state, s.traceOf tracing i⟩ := by
  have hrunning : ¬s.waiting = true := by simp [hw]
  rw [step, if_neg hrunning, hf]
  simp only [Instruction.decode, Instruction.decodeBy, hd, dispatch_eq, hk]

/-- A step that gives an instruction back has decoded it at the program counter and executed it
behind, where the stack does not refuse it either. -/
theorem executes_of_result (h : (s.step random tracing).result = .ok (some i)) :
    ∃ w : Nat, s.waiting = false ∧ s.fetch? = some w ∧
      Instruction.lookUp Instruction.table w = some i ∧
      { s with pc := s.pc + 2 }.stackFault? i = none ∧
      (s.step random tracing).state = ({ s with pc := s.pc + 2 }.execute random i).state := by
  have hr := step_reply random tracing s
  generalize s.step random tracing = r at hr h ⊢
  cases hr with
  | execute hw hf hd hk =>
    cases h
    have hmoved : { s with pc := s.pc + 2 }.stackFault? i = s.stackFault? i := stackFault?_congr rfl
    exact ⟨_, hw, hf, hd, hmoved.trans hk, rfl⟩
  | _ => cases h

/-- A step executes one instruction, or it executes none and changes nothing. -/
theorem step_executed (random : Nat → Nat) (tracing : Bool) (s : State) :
    (∃ i, (s.step random tracing).result = .ok (some i) ∧ (s.step random tracing).executed = [i]) ∨
      (s.step random tracing).executed = [] ∧ (s.step random tracing).state = s := by
  have hr := step_reply random tracing s
  generalize s.step random tracing = r at hr ⊢
  cases hr with
  | execute hw hf hd hk => exact .inl ⟨_, rfl, rfl⟩
  | _ => exact .inr ⟨rfl, rfl⟩

end State

end Chip8Vm
