import Chip8Vm.Proofs.Footprint
import Chip8Vm.Proofs.Grammar

/-!
# Where the program counter goes

Every instruction finds the program counter behind itself. A jump, a call and a return overwrite it,
a skip whose condition holds moves it on once more, and everything else leaves it there, also the
instruction that waits for a key. `State.successor?` reads this off the state before the step and
`successor?_of_step` says that it is where the step leads. Nothing keeps the program counter within memory,
so that a last word or a skip before it leads out; the next step is then a fault that changes nothing
(`step_past_the_end`).

Three pairs of words ask opposite questions of the same operands. Since a skip looks at registers and
keys only, and not at memory, exactly one word of a pair skips if it is put where the program counter
points (`skips_of_opposite`). `pc_law` puts this together.
-/

namespace Chip8Vm

/-- Whether an operation passes over the next instruction on a condition. -/
def Op.isSkip : Op → Bool
  | .skipEqualByte | .skipUnequalByte | .skipEqual | .skipUnequal | .skipPressed
  | .skipReleased => true
  | _ => false

/-- Pairs of words that skip on opposite conditions of the same operands. -/
inductive Opposite : Nat → Nat → Prop
  | byte (x : Reg) (kk : Fin 256) :
    Opposite (0x3000 + x.val * 0x100 + kk.val) (0x4000 + x.val * 0x100 + kk.val)
  | registers (x y : Reg) :
    Opposite (0x5000 + x.val * 0x100 + y.val * 0x10) (0x9000 + x.val * 0x100 + y.val * 0x10)
  | key (x : Reg) : Opposite (0xE09E + x.val * 0x100) (0xE0A1 + x.val * 0x100)

theorem Opposite.lt {u v : Nat} (h : Opposite u v) : u < 65536 ∧ v < 65536 := by
  cases h with
  | byte x kk => omega
  | registers x y => omega
  | key x => omega

namespace State

variable {random : Nat → Nat} {tracing : Bool} {i : Instruction} {s : State}

/-- Whether an instruction is a skip whose condition holds. -/
def passesOver (s : State) (i : Instruction) : Bool :=
  match i.op with
  | .skipEqualByte => s.reg i.x == i.kk
  | .skipUnequalByte => s.reg i.x != i.kk
  | .skipEqual => s.reg i.x == s.reg i.y
  | .skipUnequal => s.reg i.x != s.reg i.y
  | .skipPressed => s.keyHeld i.x
  | .skipReleased => !s.keyHeld i.x
  | _ => false

/-- Where an instruction at the program counter leads that the stack does not refuse. -/
def successor? (s : State) (i : Instruction) : Option Int :=
  match i.op with
  | .jump | .call => some i.nnn
  | .jumpOffset => some ((i.nnn + s.reg .first) % 4096 : Nat)
  | .ret => s.stack[s.sp - 1]?.map Nat.cast
  | _ => some (if s.passesOver i then s.pc + 4 else s.pc + 2)

/-! ## One step -/

/-- Executing a skip leads one or two instructions on. -/
theorem pc_skipIf_moved (condition : Bool) (s : State) :
    ({ s with pc := s.pc + 2 }.skipIf condition).pc =
      if condition then s.pc + 4 else s.pc + 2 := by
  rw [skipIf_eq]
  cases condition with
  | true => exact Int.add_assoc s.pc 2 2
  | false => rfl

/-- **A step leads where its instruction does.** -/
theorem successor?_of_step (h : (s.step random tracing).result = .ok (some i)) :
    s.successor? i = some (s.step random tracing).state.pc := by
  obtain ⟨w, -, -, -, hk, hstate⟩ := executes_of_result h
  rw [hstate]
  unfold stackFault? at hk
  unfold successor? passesOver execute
  cases hop : i.op with
  | ret =>
    cases hret : { s with pc := s.pc + 2 }.return? with
    | none => simp [hop, hret] at hk
    | some s' =>
      obtain ⟨hsp, rfl⟩ := eq_of_return? hret
      have hbound : s.sp - 1 < 16 := by
        have hle : s.sp ≤ 16 := hsp.2
        omega
      simp only [Reply.ok, Vector.getElem?_eq_getElem hbound, Option.map_some]
  | call =>
    cases hcall : { s with pc := s.pc + 2 }.call? i.nnn with
    | none => simp [hop, hcall] at hk
    | some s' =>
      obtain ⟨hsp, rfl⟩ := eq_of_call? hcall
      rfl
  | skipEqualByte | skipUnequalByte | skipEqual | skipUnequal | skipPressed | skipReleased =>
    exact congrArg some (pc_skipIf_moved _ s).symm
  | storeRegisters =>
    simp only [Reply.ok, storeRegisters, advancePast_eq]
    rfl
  | loadRegisters =>
    simp only [Reply.ok, loadRegisters, advancePast_eq]
    rfl
  | _ => rfl

/-- A machine whose program counter has left memory faults for it, and stays as it is. -/
theorem step_past_the_end (random : Nat → Nat) (tracing : Bool) (hw : s.waiting = false)
    (hpc : 0xFFE < s.pc) :
    s.step random tracing = .refuse ⟨.programCounter, none, s.pc, s.report⟩ s := by
  have hf : s.fetch? = none := fetch?_eq_none_iff.2 (.inr (by omega))
  have hr := step_reply random tracing s
  generalize s.step random tracing = r at hr ⊢
  cases hr with
  | wait hw' => simp [hw] at hw'
  | outside => rfl
  | unknown _ hf' => simp [hf] at hf'
  | stack _ hf' => simp [hf] at hf'
  | execute _ hf' => simp [hf] at hf'

/-! ## Opposite conditions -/

/-- The state with another word where the program counter points. -/
def withWord (s : State) (w : Nat) : State :=
  { s with memory := s.memory.write s.pc.toNat [w / 256, w % 256] }

theorem fetch?_withWord (hlow : 0 ≤ s.pc) (hhigh : s.pc ≤ 0xFFE) (w : Nat) :
    (s.withWord w).fetch? = some w := by
  have hfirst : (s.withWord w).memory.byte s.pc.toNat = w / 256 :=
    Memory.byte_write_add [w / 256, w % 256] _ _ (by simp) 0 (by simp)
  have hsecond : (s.withWord w).memory.byte (s.pc.toNat + 1) = w % 256 :=
    Memory.byte_write_add [w / 256, w % 256] _ _ (by simp) 1 (by simp)
  have hword : (s.withWord w).memory.word s.pc.toNat = w := by
    rw [Memory.word, hfirst, hsecond]
    omega
  exact fetch?_eq_some_iff.2 ⟨⟨hlow, by show s.pc + 1 < 4096; omega⟩, hword⟩

/-- The stack does not refuse a skip, which leads one or two instructions on. -/
theorem successor?_of_isSkip (h : i.op.isSkip = true) (s : State) :
    s.stackFault? i = none ∧
      s.successor? i = some (if s.passesOver i then s.pc + 4 else s.pc + 2) := by
  unfold stackFault? successor?
  cases hop : i.op with
  | ret | call | jump | jumpOffset =>
    rw [hop] at h
    cases h
  | _ => exact ⟨rfl, rfl⟩

/-- A skip is executed where it is put, and asks what it would ask of the state before it was. -/
theorem step_withWord (random : Nat → Nat) (tracing : Bool) (hw : s.waiting = false)
    (hlow : 0 ≤ s.pc) (hhigh : s.pc ≤ 0xFFE) {w : Nat}
    (hd : Instruction.lookUp Instruction.table w = some i) (hskip : i.op.isSkip = true) :
    ((s.withWord w).step random tracing).result = .ok (some i) ∧
      ((s.withWord w).step random tracing).state.pc =
        if s.passesOver i then s.pc + 4 else s.pc + 2 := by
  obtain ⟨hk, hnext⟩ := successor?_of_isSkip hskip (s.withWord w)
  have hwaiting : (s.withWord w).waiting = false := hw
  have hresult : ((s.withWord w).step random tracing).result = .ok (some i) := by
    rw [step_of_fetch? hwaiting (fetch?_withWord hlow hhigh w) hd hk]
  have hpc := successor?_of_step hresult
  exact ⟨hresult, Option.some.inj (hpc.symm.trans hnext)⟩

/-- The two words of a pair are skips, and one passes over just where the other does not. -/
theorem skips_of_opposite {u v : Nat} (h : Opposite u v) :
    ∃ op op', Instruction.grammar u = some op ∧ Instruction.grammar v = some op' ∧
      op.isSkip = true ∧ op'.isSkip = true ∧
      ∀ s : State, s.passesOver ⟨op', v⟩ = !s.passesOver ⟨op, u⟩ := by
  obtain ⟨hltu, hltv⟩ := h.lt
  have hfields := Instruction.operands_natCast hltu
  have hfields' := Instruction.operands_natCast hltv
  cases h with
  | byte x kk =>
    generalize hu : 0x3000 + x.val * 0x100 + kk.val = u at *
    generalize hv : 0x4000 + x.val * 0x100 + kk.val = v at *
    refine ⟨.skipEqualByte, .skipUnequalByte, ?_, ?_, rfl, rfl, fun s => ?_⟩
    · rw [Instruction.grammar, show u / 4096 = 3 by omega]
      rfl
    · rw [Instruction.grammar, show v / 4096 = 4 by omega]
      rfl
    · obtain ⟨hx, -, hkk⟩ := hfields .skipEqualByte
      obtain ⟨hx', -, hkk'⟩ := hfields' .skipUnequalByte
      have hsame : Instruction.x ⟨.skipUnequalByte, v⟩ = Instruction.x ⟨.skipEqualByte, u⟩ :=
        Fin.ext (by omega)
      have hbyte : Instruction.kk ⟨.skipUnequalByte, v⟩ = Instruction.kk ⟨.skipEqualByte, u⟩ := by
        omega
      simp only [passesOver, hsame, hbyte, bne]
  | registers x y =>
    generalize hu : 0x5000 + x.val * 0x100 + y.val * 0x10 = u at *
    generalize hv : 0x9000 + x.val * 0x100 + y.val * 0x10 = v at *
    refine ⟨.skipEqual, .skipUnequal, ?_, ?_, rfl, rfl, fun s => ?_⟩
    · rw [Instruction.grammar, show u / 4096 = 5 by omega]
      exact if_pos (by omega)
    · rw [Instruction.grammar, show v / 4096 = 9 by omega]
      exact if_pos (by omega)
    · obtain ⟨hx, hy, -⟩ := hfields .skipEqual
      obtain ⟨hx', hy', -⟩ := hfields' .skipUnequal
      have hsame : Instruction.x ⟨.skipUnequal, v⟩ = Instruction.x ⟨.skipEqual, u⟩ :=
        Fin.ext (by omega)
      have hother : Instruction.y ⟨.skipUnequal, v⟩ = Instruction.y ⟨.skipEqual, u⟩ :=
        Fin.ext (by omega)
      simp only [passesOver, hsame, hother, bne]
  | key x =>
    generalize hu : 0xE09E + x.val * 0x100 = u at *
    generalize hv : 0xE0A1 + x.val * 0x100 = v at *
    refine ⟨.skipPressed, .skipReleased, ?_, ?_, rfl, rfl, fun s => ?_⟩
    · rw [Instruction.grammar, show u / 4096 = 14 by omega, show u % 256 = 0x9E by omega]
      rfl
    · rw [Instruction.grammar, show v / 4096 = 14 by omega, show v % 256 = 0xA1 by omega]
      rfl
    · have hx := (hfields .skipPressed).1
      have hx' := (hfields' .skipReleased).1
      have hsame : Instruction.x ⟨.skipReleased, v⟩ = Instruction.x ⟨.skipPressed, u⟩ :=
        Fin.ext (by omega)
      simp only [passesOver, hsame]

/-- **The program counter law.** A step leads where its instruction does, and one that leads past the
end of memory is followed by a fault that changes nothing, unless the machine waits. Where one word of
an opposite pair is put at the program counter the step skips, and where the other is put it does
not. -/
theorem pc_law (random : Nat → Nat) (tracing : Bool) (s : State) :
    (∀ i, (s.step random tracing).result = .ok (some i) →
      let t := (s.step random tracing).state
      s.successor? i = some t.pc ∧
      (t.waiting = false → 0xFFE < t.pc →
        t.step random tracing = .refuse ⟨.programCounter, none, t.pc, t.report⟩ t)) ∧
    ∀ u v, Opposite u v → s.waiting = false → 0 ≤ s.pc → s.pc ≤ 0xFFE →
      let t := (s.withWord u).step random tracing
      let t' := (s.withWord v).step random tracing
      (∃ op, t.result = .ok (some ⟨op, u⟩)) ∧ (∃ op, t'.result = .ok (some ⟨op, v⟩)) ∧
      (t.state.pc = s.pc + 4 ∧ t'.state.pc = s.pc + 2 ∨
        t.state.pc = s.pc + 2 ∧ t'.state.pc = s.pc + 4) := by
  constructor
  · intro i h t
    exact ⟨successor?_of_step h, step_past_the_end random tracing⟩
  · intro u v h hw hlow hhigh t t'
    obtain ⟨hltu, hltv⟩ := h.lt
    obtain ⟨op, op', hg, hg', hskip, hskip', hopposite⟩ := skips_of_opposite h
    obtain ⟨hresult, hpc⟩ := step_withWord random tracing hw hlow hhigh
      (Instruction.lookUp_of_grammar hltu hg) hskip
    obtain ⟨hresult', hpc'⟩ := step_withWord random tracing hw hlow hhigh
      (Instruction.lookUp_of_grammar hltv hg') hskip'
    refine ⟨⟨op, hresult⟩, ⟨op', hresult'⟩, ?_⟩
    rw [hopposite] at hpc'
    cases hholds : s.passesOver ⟨op, u⟩ with
    | true =>
      rw [hholds] at hpc hpc'
      exact .inl ⟨hpc, hpc'⟩
    | false =>
      rw [hholds] at hpc hpc'
      exact .inr ⟨hpc, hpc'⟩

/-- A skip over the very end of memory: it stands at `0xFFE`, and its condition holds. The step leads
to `0x1002`, where the next one faults; with the opposite word in its place it leads to `0x1000`. -/
theorem pc_law_past_the_end :
    let s := { fresh false with pc := 0xFFE }
    let t := ((s.withWord 0x3000).step id false).state
    t.pc = 0x1002 ∧ t.step id false = .refuse ⟨.programCounter, none, 0x1002, t.report⟩ t ∧
      ((s.withWord 0x4000).step id false).state.pc = 0x1000 := by
  intro s t
  -- the step is not to be computed, so `t` is only known by its equation
  have ht : ((s.withWord 0x3000).step id false).state = t := rfl
  clear_value t
  have hdecoded : Instruction.lookUp Instruction.table (0x3000 : Nat) =
      some ⟨.skipEqualByte, 0x3000⟩ := by decide
  obtain ⟨hresult, hpc⟩ := step_withWord id false (s := s) rfl (by decide) (by decide) hdecoded rfl
  have hholds : s.passesOver ⟨.skipEqualByte, 0x3000⟩ = true := by decide
  have hwaiting := (step_footprint hresult).waiting nofun
  have hpast := ((pc_law id false (s.withWord 0x3000)).1 _ hresult).2
  rw [ht, hholds] at hpc
  rw [ht] at hwaiting
  rw [ht] at hpast
  have hend : t.pc = 0x1002 := hpc
  have hfault := hpast hwaiting (by rw [hend]; decide)
  rw [hend] at hfault
  have hopposite : Opposite 0x3000 0x4000 := .byte 0 0
  obtain ⟨-, -, hpair⟩ := (pc_law id false s).2 _ _ hopposite rfl (by decide) (by decide)
  rw [ht] at hpair
  rcases hpair with ⟨-, hskipped⟩ | ⟨hstayed, -⟩
  · exact ⟨hend, hfault, hskipped⟩
  · exact absurd (hend.symm.trans hstayed) (by decide)

end State

end Chip8Vm
