import Chip8Vm.Proofs.Interleaving
import Chip8Vm.Proofs.Simulation

/-!
# What an instruction looks at

A step looks at the word at the program counter, and two of the instructions look at a block of
bytes from the address register on as well: one draws the block and the other loads it into
registers. `State.Reads` gives these addresses. Two machines that are the same but for memory, and
there too on some addresses, are related by `SameOn`, and an instruction keeps that relation if the
block it looks at is the same in both (`SameOn.execute`): what it stores comes from registers, and so
is the same in both machines. `step_reads_only` says it of a step, where the word decides which
instruction it is: no byte outside shows in the reply, in a cell of the state or in another byte.
-/

namespace Chip8Vm

namespace Memory

variable {m m' : Memory} {a : Nat}

/-- A block reads alike from memories that have the same bytes in it. -/
theorem read_congr_memory {n : Nat} (h : ∀ k < n, m'.byte (a + k) = m.byte (a + k)) :
    m'.read a n = m.read a n :=
  List.map_congr_left fun k hk => h k (List.mem_range.1 hk)

/-- A byte that is the same in two memories is so after the same block has been written to both. -/
theorem byte_write_congr_memory {c : Nat} (bs : List Nat) (h : m'.byte c = m.byte c) :
    (m'.write a bs).byte c = (m.write a bs).byte c := by
  induction bs generalizing m m' a with
  | nil => exact h
  | cons b bs ih =>
    refine ih ?_
    rw [byte_put, byte_put, h]

end Memory

/-- How many bytes from the address register on an operation with operands `x` and `n` looks at. -/
def Op.loads (x : Reg) (n : Nat) : Op → Nat
  | .draw => n
  | .loadRegisters => x.val + 1
  | _ => 0

namespace State

/-- The second state is the first one with other bytes in memory, but for those at some addresses. -/
def SameOn (known : Nat → Prop) (s t : State) : Prop :=
  ∃ memory, t = { s with memory } ∧ ∀ a, known a → memory.byte a = s.memory.byte a

namespace SameOn

variable {known : Nat → Prop} {s t : State} (h : SameOn known s t)

include h

theorem skipIf (condition : Bool) : SameOn known (s.skipIf condition) (t.skipIf condition) := by
  obtain ⟨memory, rfl, hknown⟩ := h
  simp only [skipIf_eq]
  exact ⟨memory, rfl, hknown⟩

theorem return? {s' : State} (hs : s.return? = some s') :
    ∃ t', t.return? = some t' ∧ SameOn known s' t' := by
  obtain ⟨memory, rfl, hknown⟩ := h
  obtain ⟨hsp, rfl⟩ := eq_of_return? hs
  exact ⟨_, dif_pos hsp, memory, rfl, hknown⟩

theorem call? {target : Nat} {s' : State} (hs : s.call? target = some s') :
    ∃ t', t.call? target = some t' ∧ SameOn known s' t' := by
  obtain ⟨memory, rfl, hknown⟩ := h
  obtain ⟨hsp, rfl⟩ := eq_of_call? hs
  exact ⟨_, dif_pos hsp, memory, rfl, hknown⟩

theorem advancePast (x : Reg) : SameOn known (s.advancePast x) (t.advancePast x) := by
  obtain ⟨memory, rfl, hknown⟩ := h
  simp only [advancePast_eq]
  exact ⟨memory, rfl, hknown⟩

/-- What is stored is the same in both machines. -/
theorem storeDecimal (x : Reg) : SameOn known (s.storeDecimal x) (t.storeDecimal x) := by
  obtain ⟨memory, rfl, hknown⟩ := h
  exact ⟨_, rfl, fun a ha => Memory.byte_write_congr_memory _ (hknown a ha)⟩

theorem storeRegisters (x : Reg) : SameOn known (s.storeRegisters x) (t.storeRegisters x) := by
  obtain ⟨memory, rfl, hknown⟩ := h
  apply advancePast
  exact ⟨_, rfl, fun a ha => Memory.byte_write_congr_memory _ (hknown a ha)⟩

theorem loadRegisters {x : Reg}
    (hblock : ∀ k < x.val + 1, t.memory.byte (s.index + k) = s.memory.byte (s.index + k)) :
    SameOn known (s.loadRegisters x) (t.loadRegisters x) := by
  obtain ⟨memory, rfl, hknown⟩ := h
  apply advancePast
  refine ⟨memory, ?_, hknown⟩
  have hloaded : (Vector.ofFn fun r : Reg =>
      if r ≤ x then memory.byte (s.index + r.val) else s.reg r) =
      Vector.ofFn fun r : Reg => if r ≤ x then s.memory.byte (s.index + r.val) else s.reg r := by
    congr 1
    funext r
    by_cases hr : r ≤ x
    · rw [if_pos hr, if_pos hr]
      exact hblock r.val (Nat.lt_succ_of_le hr)
    · rw [if_neg hr, if_neg hr]
  exact congrArg (fun registers => { s with memory, registers }) hloaded

theorem drawSprite (x y : Reg) {n : Nat}
    (hblock : ∀ k < n, t.memory.byte (s.index + k) = s.memory.byte (s.index + k)) :
    SameOn known (s.drawSprite x y n) (t.drawSprite x y n) := by
  obtain ⟨memory, rfl, hknown⟩ := h
  have hbytes : memory.read s.index n = s.memory.read s.index n :=
    Memory.read_congr_memory hblock
  refine ⟨memory, ?_, hknown⟩
  simp only [State.drawSprite, hbytes]
  rfl

/-- An instruction that the stack does not refuse keeps the machines the same on the known bytes, if
the block that it looks at is the same in both. -/
theorem execute (random : Nat → Nat) {i : Instruction} (hk : s.stackFault? i = none)
    (hblock : ∀ k < i.op.loads i.x i.n,
      t.memory.byte (s.index + k) = s.memory.byte (s.index + k)) :
    SameOn known (s.execute random i).state (t.execute random i).state := by
  unfold State.execute
  cases hop : i.op with
  | ret =>
    cases hret : s.return? with
    | none => simp [stackFault?, hop, hret] at hk
    | some s' =>
      obtain ⟨t', ht, hsame⟩ := h.return? hret
      simp only [ht]
      exact hsame
  | call =>
    cases hcall : s.call? i.nnn with
    | none => simp [stackFault?, hop, hcall] at hk
    | some s' =>
      obtain ⟨t', ht, hsame⟩ := h.call? hcall
      simp only [ht]
      exact hsame
  | draw =>
    rw [hop] at hblock
    exact h.drawSprite i.x i.y hblock
  | loadRegisters =>
    rw [hop] at hblock
    exact h.loadRegisters hblock
  | storeDecimal => exact h.storeDecimal i.x
  | storeRegisters => exact h.storeRegisters i.x
  | skipEqualByte | skipUnequalByte | skipEqual | skipUnequal | skipPressed | skipReleased =>
    -- the condition is on registers and keys
    obtain ⟨memory, rfl, hknown⟩ := h
    exact skipIf ⟨memory, rfl, hknown⟩ _
  | _ =>
    -- the others neither look at memory nor write to it
    obtain ⟨memory, rfl, hknown⟩ := h
    exact ⟨memory, rfl, hknown⟩

theorem dispatch (random : Nat → Nat) (tracing : Bool) {i : Instruction}
    (hblock : ∀ k < i.op.loads i.x i.n,
      t.memory.byte (s.index + k) = s.memory.byte (s.index + k)) :
    (s.dispatch random tracing i).Matches (SameOn known) Eq (t.dispatch random tracing i) := by
  have hmoved : SameOn known { s with pc := s.pc + 2 } { t with pc := t.pc + 2 } := by
    obtain ⟨memory, rfl, hknown⟩ := h
    exact ⟨memory, rfl, hknown⟩
  have hstack : t.stackFault? i = s.stackFault? i := by
    obtain ⟨memory, rfl, -⟩ := h
    exact stackFault?_congr rfl
  have htrace : t.traceOf tracing i = s.traceOf tracing i := by
    obtain ⟨memory, rfl, -⟩ := h
    rfl
  rw [dispatch_eq, dispatch_eq, hstack, htrace]
  cases hk : s.stackFault? i with
  | none =>
    have hbehind : { s with pc := s.pc + 2 }.stackFault? i = s.stackFault? i :=
      stackFault?_congr rfl
    exact ⟨rfl, hmoved.execute random (hbehind.trans hk) hblock, rfl⟩
  | some kind =>
    obtain ⟨memory, rfl, hknown⟩ := h
    -- a report does not show memory
    exact ⟨rfl, ⟨memory, rfl, hknown⟩, rfl⟩

end SameOn

/-- A step looks at an address: a byte of the word at the program counter is there, or one of the
block that the instruction needs, which wraps round. A machine that waits looks at nothing. -/
def Reads (s : State) (a : Nat) : Prop :=
  s.waiting = false ∧
    (s.fetch?.isSome ∧ (s.pc = a ∨ s.pc + 1 = a) ∨
      ∃ i, s.instruction? = some i ∧ ∃ k < i.op.loads i.x i.n, (s.index + k) % 4096 = a)

variable {random : Nat → Nat} {tracing : Bool} {known : Nat → Prop} {s t : State}

/-- Where the word is the same in both machines, so is what is fetched. -/
theorem SameOn.fetch? (h : SameOn known s t) (hw : s.waiting = false)
    (hreads : ∀ a, s.Reads a → t.memory.byte a = s.memory.byte a) : t.fetch? = s.fetch? := by
  obtain ⟨memory, rfl, -⟩ := h
  by_cases hpc : 0 ≤ s.pc ∧ s.pc + 1 < 4096
  · have hsome : s.fetch?.isSome = true := by simp [State.fetch?, hpc]
    have hhigh := hreads s.pc.toNat ⟨hw, .inl ⟨hsome, by omega⟩⟩
    have hlow := hreads (s.pc.toNat + 1) ⟨hw, .inl ⟨hsome, by omega⟩⟩
    simp only [State.fetch?, if_pos hpc, Memory.word]
    rw [hhigh, hlow]
  · simp only [State.fetch?, if_neg hpc]

/-- A step keeps the machines the same on the known bytes, and gives the same reply, if what it looks
at is the same in both. -/
theorem SameOn.step (h : SameOn known s t) (random : Nat → Nat) (tracing : Bool)
    (hreads : ∀ a, s.Reads a → t.memory.byte a = s.memory.byte a) :
    (s.step random tracing).Matches (SameOn known) Eq (t.step random tracing) := by
  have hwait : t.waiting = s.waiting := by
    obtain ⟨memory, rfl, -⟩ := h
    rfl
  have hpc : t.pc = s.pc := by
    obtain ⟨memory, rfl, -⟩ := h
    rfl
  have hretreat (f : Fault) :
      (s.retreat s.pc f).Matches (SameOn known) Eq (t.retreat s.pc f) := by
    obtain ⟨memory, rfl, hknown⟩ := h
    exact ⟨rfl, ⟨memory, rfl, hknown⟩, rfl⟩
  unfold State.step
  rw [hwait]
  cases hw : s.waiting with
  | true => exact ⟨rfl, h, rfl⟩
  | false =>
    rw [h.fetch? hw hreads, hpc]
    cases hf : s.fetch? with
    | none => exact hretreat _
    | some w =>
      simp only [Instruction.decode, Instruction.decodeBy]
      cases hd : Instruction.lookUp Instruction.table w with
      | none => exact hretreat _
      | some i =>
        have hi : s.instruction? = some i := by
          rw [instruction?, hf]
          exact hd
        refine h.dispatch random tracing fun k hk => ?_
        have hbyte := hreads ((s.index + k) % 4096) ⟨hw, .inr ⟨i, hi, k, hk, rfl⟩⟩
        rwa [Memory.byte_mod, Memory.byte_mod] at hbyte

/-- **A step looks at no byte outside its word and its block.** With other bytes everywhere else it
gives the same instruction or the same fault, report included, and prints the same; the states are
the same afterwards but for memory, and memory differs nowhere that it did not differ before. -/
theorem step_reads_only (random : Nat → Nat) (tracing : Bool) (s : State) (memory : Memory)
    (hreads : ∀ a, s.Reads a → memory.byte a = s.memory.byte a) :
    let r := s.step random tracing
    let r' := { s with memory }.step random tracing
    r'.result = r.result ∧ r'.printed = r.printed ∧
      r'.state = { r.state with memory := r'.state.memory } ∧
      ∀ a, memory.byte a = s.memory.byte a → r'.state.memory.byte a = r.state.memory.byte a := by
  intro r r'
  have hstart : SameOn (fun a => memory.byte a = s.memory.byte a) s { s with memory } :=
    ⟨memory, rfl, fun _ ha => ha⟩
  obtain ⟨hresult, ⟨memory', hstate, hknown⟩, hprinted⟩ := hstart.step random tracing hreads
  refine ⟨hresult.symm, hprinted.symm, ?_, ?_⟩
  · show r'.state = { r.state with memory := r'.state.memory }
    rw [show r'.state = { r.state with memory := memory' } from hstate]
  · intro a ha
    show r'.state.memory.byte a = r.state.memory.byte a
    rw [show r'.state = { r.state with memory := memory' } from hstate]
    exact hknown a ha

/-- Two registers are loaded from the last byte of memory and from the first one, and nothing else
in memory matters to it. -/
theorem step_reads_only_wrapping :
    let layOut (filler : Nat) : Memory :=
      Memory.write (Memory.write (Vector.replicate 4096 filler) Memory.programStart [0xF1, 0x65])
        0xFFF [3, 4]
    let s := { fresh false with memory := layOut 0, index := 0xFFF }
    let t := { s with memory := layOut 7 }
    s.memory.byte 5 ≠ t.memory.byte 5 ∧
      (t.step id false).result = (s.step id false).result ∧
      (s.step id false).executed = [⟨.loadRegisters, 0xF165⟩] ∧
      (t.step id false).state.reg 1 = (s.step id false).state.reg 1 ∧
      (s.step id false).state.reg 1 = 4 := by
  intro layOut s t
  have hpc : s.pc = 0x200 := rfl
  have hinstruction : s.instruction? = some ⟨.loadRegisters, 0xF165⟩ := by decide +kernel
  have hreads : ∀ a, s.Reads a → (layOut 7).byte a = s.memory.byte a := by
    rintro a ⟨-, ⟨-, hword⟩ | ⟨i, hi, k, hk, rfl⟩⟩
    · have ha : a = 0x200 ∨ a = 0x201 := by omega
      rcases ha with rfl | rfl
      · decide +kernel
      · decide +kernel
    · obtain rfl := Option.some.inj (hinstruction.symm.trans hi)
      have htwo : k < 2 := hk
      rcases (by omega : k = 0 ∨ k = 1) with rfl | rfl
      · decide +kernel
      · decide +kernel
  have hstep := step_reads_only id false s (layOut 7) hreads
  have hstate : (t.step id false).state =
    { (s.step id false).state with memory := (t.step id false).state.memory } := hstep.2.2.1
  refine ⟨by decide +kernel, hstep.1, by decide +kernel, ?_, by decide +kernel⟩
  rw [hstate]
  simp only [reg]

end State

end Chip8Vm
