import Chip8Vm.Proofs.Guarded.Agreement

/-!
# How a step ends

`State.verdict` says how a step has to end by looking at the wait, the program counter, the word
it points at and the stack pointer only, and never at what an instruction does.
`step_ends_as_verdict` says that a step of a sound state ends so, wherever the program counter
stands, and that it gets there without reaching for a cell that does not exist.
-/

namespace Chip8Vm.State

variable {random : Nat → Nat} {tracing : Bool} {s : State}

/-- How a step has to end. A fault names the word it is about, big-endian, if there was one to
fetch, and the address of that word, and reports the state before the step. -/
def verdict (s : State) : Except Fault (Option Instruction) :=
  if s.waiting then .ok none
  else if s.pc < 0 ∨ 4096 ≤ s.pc + 1 then .error ⟨.programCounter, none, s.pc, s.report⟩
  else
    let w : Nat := s.memory.byte s.pc.toNat * 256 + s.memory.byte (s.pc.toNat + 1)
    match Instruction.decode w s.pc with
    | .error _ => .error ⟨.unknownOpcode, some w, s.pc, s.report⟩
    | .ok i =>
      if i.op = .call ∧ s.sp = 16 then .error ⟨.stackOverflow, some w, s.pc, s.report⟩
      else if i.op = .ret ∧ s.sp = 0 then .error ⟨.stackUnderflow, some w, s.pc, s.report⟩
      else .ok (some i)

/-- Where the program counter points at a word, the verdict is on that word and on the stack. -/
theorem verdict_of_fetch? {w : Nat} (hsp : s.sp ≤ 16) (hw : s.waiting = false)
    (hf : s.fetch? = some w) :
    s.verdict =
      match Instruction.lookUp Instruction.table w with
      | none => .error ⟨.unknownOpcode, some w, s.pc, s.report⟩
      | some i =>
        match s.stackFault? i with
        | some kind => .error ⟨kind, some w, s.pc, s.report⟩
        | none => .ok (some i) := by
  obtain ⟨hpc, hword⟩ := fetch?_eq_some_iff.1 hf
  have hin : ¬(s.pc < 0 ∨ 4096 ≤ s.pc + 1) := by omega
  have hbytes : s.memory.byte s.pc.toNat * 256 + s.memory.byte (s.pc.toNat + 1) = w := hword
  rw [verdict, hw, if_neg Bool.false_ne_true, if_neg hin]
  simp only [hbytes, Instruction.decode, Instruction.decodeBy]
  cases Instruction.lookUp Instruction.table w with
  | none => rfl
  | some i =>
    dsimp only
    -- no instruction both calls and returns, so the order of the two questions does not matter
    rw [stackFault?_eq hsp]
    by_cases hcall : i.op = .call ∧ s.sp = 16
    · simp only [if_pos hcall]
    · by_cases hret : i.op = .ret ∧ s.sp = 0
      · simp only [if_neg hcall, if_pos hret]
      · simp only [if_neg hcall, if_neg hret]

/-- A step ends as the verdict says. -/
theorem result_step (hsp : s.sp ≤ 16) : (s.step random tracing).result = s.verdict := by
  have hr := step_reply random tracing s
  generalize s.step random tracing = r at hr ⊢
  cases hr with
  | wait hw => simp [verdict, hw, Reply.ok]
  | outside hw hf =>
    have hpc := fetch?_eq_none_iff.1 hf
    simp [verdict, hw, hpc, Reply.refuse]
  | unknown hw hf hd => rw [verdict_of_fetch? hsp hw hf, hd, Reply.refuse]
  | stack hw hf hd hk => simp only [verdict_of_fetch? hsp hw hf, hd, hk]
  | execute hw hf hd hk => simp only [verdict_of_fetch? hsp hw hf, hd, hk]

/-- **A step of a sound state ends as the verdict says and in no other way**, wherever the program
counter stands: no guard on its way refuses an access, and a machine that waits neither prints nor
changes anything. -/
theorem step_ends_as_verdict (random : Nat → Nat) (tracing : Bool) {s : State} (h : s.Sound) :
    (s.step random tracing).result = s.verdict ∧
      Guarded.step random tracing s = .ok (s.step random tracing) ∧
      (s.waiting = true → s.step random tracing = .ok none s) :=
  ⟨result_step h.sp, Guarded.step_eq_ok h random tracing, step_waiting⟩

/-- A return at the very start of a program underflows the stack. -/
theorem step_ends_as_verdict_lone_return :
    let s := ((fresh false).load [0x00, 0xEE]).state
    s.Sound ∧ (s.step (fun _ => 0) false).result =
      .error ⟨.stackUnderflow, some 0x00EE, 0x200, s.report⟩ := by
  intro s
  have hs : s.Sound := (sound_fresh false).load _
  have hf : s.fetch? = some 0x00EE := by decide +kernel
  have hd : Instruction.lookUp Instruction.table (0x00EE : Nat) = some ⟨.ret, 0x00EE⟩ := by
    decide +kernel
  have hk : s.stackFault? ⟨.ret, 0x00EE⟩ = some .stackUnderflow := by decide +kernel
  have hpc : s.pc = 0x200 := by decide +kernel
  have hv : s.verdict = .error ⟨.stackUnderflow, some 0x00EE, 0x200, s.report⟩ := by
    rw [verdict_of_fetch? hs.sp rfl hf, hd]
    simp only [hk, hpc]
    rfl
  exact ⟨hs, (step_ends_as_verdict _ _ hs).1.trans hv⟩

end Chip8Vm.State
