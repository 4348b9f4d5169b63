import Chip8Vm.Proofs.Concern
import Chip8Vm.Proofs.Simulation

/-!
# Addresses count modulo the size of memory

Two machines with all in common but the address register, where they differ by a multiple of 4096,
are told apart by nothing but the line of the report that shows it. Memory wraps round at 4096
(`Memory.read_congr`, `Memory.write_congr`) and the address register itself at 65536, which is a
multiple of that; so the five operations that use the address register keep `SameAddress`
(`SameAddress.execute`), all others do not look at it, and `replies_of_sameAddress` follows for
histories of any length.
-/

namespace Chip8Vm

namespace Memory

variable {a b : Nat}

theorem byte_congr (m : Memory) (h : a % 4096 = b % 4096) : m.byte a = m.byte b := by
  rw [← byte_mod m a, h, byte_mod]

theorem put_congr (m : Memory) (h : a % 4096 = b % 4096) (v : Nat) : m.put a v = m.put b v := by
  simp only [put, h]

/-- A block is read alike from addresses that are the same modulo the size of memory. -/
theorem read_congr (m : Memory) (h : a % 4096 = b % 4096) (n : Nat) : m.read a n = m.read b n := by
  refine List.map_congr_left fun k _ => m.byte_congr ?_
  omega

/-- A block is written alike at addresses that are the same modulo the size of memory. -/
theorem write_congr (m : Memory) (h : a % 4096 = b % 4096) (bs : List Nat) :
    m.write a bs = m.write b bs := by
  induction bs generalizing m a b with
  | nil => rfl
  | cons v bs ih =>
    have hnext : (a + 1) % 4096 = (b + 1) % 4096 := by omega
    rw [write, write, put_congr m h, ih _ hnext]

end Memory

namespace State

/-- The second machine is the first one with an address register that may differ by a multiple of
the size of memory. -/
def SameAddress (s t : State) : Prop :=
  ∃ index, t = { s with index } ∧ index % 4096 = s.index % 4096

namespace SameAddress

variable {s t : State} (h : SameAddress s t)

include h

theorem advancePast (x : Reg) : SameAddress (s.advancePast x) (t.advancePast x) := by
  obtain ⟨index, rfl, hindex⟩ := h
  simp only [advancePast_eq]
  refine ⟨if s.advanceIndex then (index + x.val + 1) % 65536 else index, rfl, ?_⟩
  dsimp only
  split <;> omega

theorem drawSprite (x y : Reg) (n : Nat) :
    SameAddress (s.drawSprite x y n) (t.drawSprite x y n) := by
  obtain ⟨index, rfl, hindex⟩ := h
  have hbytes := s.memory.read_congr hindex n
  refine ⟨index, ?_, hindex⟩
  simp only [State.drawSprite, hbytes]
  rfl

theorem storeDecimal (x : Reg) : SameAddress (s.storeDecimal x) (t.storeDecimal x) := by
  obtain ⟨index, rfl, hindex⟩ := h
  have hmemory := s.memory.write_congr hindex
  refine ⟨index, ?_, hindex⟩
  simp only [State.storeDecimal, hmemory]
  rfl

theorem storeRegisters (x : Reg) : SameAddress (s.storeRegisters x) (t.storeRegisters x) := by
  obtain ⟨index, rfl, hindex⟩ := h
  have hmemory := s.memory.write_congr hindex
  apply advancePast
  exact ⟨index, by simp only [hmemory], hindex⟩

theorem loadRegisters (x : Reg) : SameAddress (s.loadRegisters x) (t.loadRegisters x) := by
  obtain ⟨index, rfl, hindex⟩ := h
  have hbyte (k : Nat) : s.memory.byte (index + k) = s.memory.byte (s.index + k) :=
    s.memory.byte_congr (by omega)
  apply advancePast
  refine ⟨index, ?_, hindex⟩
  simp only [hbyte]
  rfl

/-- An instruction keeps the address registers the same modulo the size of memory. -/
theorem execute (random : Nat → Nat) (i : Instruction) :
    SameAddress (s.execute random i).state (t.execute random i).state := by
  by_cases hcell : Cell.index ∈ i.op.cells
  · unfold State.execute
    cases hop : i.op with
    | draw => exact h.drawSprite i.x i.y i.n
    | storeDecimal => exact h.storeDecimal i.x
    | storeRegisters => exact h.storeRegisters i.x
    | loadRegisters => exact h.loadRegisters i.x
    | setIndex | pointGlyph =>
      obtain ⟨index, rfl, -⟩ := h
      exact ⟨_, rfl, rfl⟩
    | addIndex =>
      obtain ⟨index, rfl, hindex⟩ := h
      refine ⟨(index + s.reg i.x) % 65536, rfl, ?_⟩
      show (index + s.reg i.x) % 65536 % 4096 = (s.index + s.reg i.x) % 65536 % 4096
      omega
    | _ => simp [hop, Op.cells] at hcell
  · obtain ⟨index, rfl, hindex⟩ := h
    -- neither looked at nor written to
    have hkeeps (a : Nat) : ∀ c ∈ i.op.cells, Edit.Keeps { index := fun _ => a } c := by
      intro c hc
      cases c with
      | index => exact absurd hc hcell
      | _ => rfl
    have hedit := execute_edit random (hkeeps index) s
    have hkept := apply_execute random (hkeeps s.index) (s := s) rfl
    refine ⟨index, congrArg Reply.state hedit, hindex.trans ?_⟩
    exact congrArg (·.index % 4096) hkept

/-- The `i:` line is the only one of the report that shows the address register. -/
theorem sameLinesBut : SameLinesBut 1 s t := by
  obtain ⟨index, rfl, -⟩ := h
  intro j hj
  match j with
  | 0 | 2 | 3 | 4 | 5 | j + 6 => rfl
  | 1 => exact absurd rfl hj

end SameAddress

theorem simulation_sameAddress (random : Nat → Nat) :
    Simulation random random SameAddress (SameLinesBut 1) where
  alike := by
    rintro s _ ⟨index, rfl, -⟩
    exact ⟨index, s.stack, s.keyRegister, s.drawn, rfl, fun _ => rfl⟩
  reports h := h.sameLinesBut
  blind := by
    rintro s _ ⟨index, rfl, hindex⟩ memory registers pc keys delay sound dirty waiting -
    exact ⟨index, rfl, hindex⟩
  execute h _ := h.execute random _
  reset := by
    rintro s _ ⟨index, rfl, hindex⟩
    exact ⟨0, rfl, rfl⟩

/-- **The address register counts modulo the size of memory.** Machines that differ in a multiple of
it answer every call alike, with the same faults and the same text printed, and stay such machines;
only the second line of a report may tell them apart. -/
theorem replies_of_sameAddress (env : Surroundings) {s t : State} (h : SameAddress s t)
    (history : List Operation) :
    List.Forall₂ (Reply.Matches SameAddress (SameOutcome (SameLinesBut 1)))
      (s.replies env history) (t.replies env history) :=
  (simulation_sameAddress env.random).replies history h

/-- Two registers are stored across the end of memory, and one of the address registers passes the
end of its own range, too. -/
theorem replies_of_sameAddress_past_the_end :
    let env : Surroundings := ⟨fun _ => 0, false, fun _ => .ok []⟩
    let s := { ((fresh true).load [0xF1, 0x55]).state with index := 0xFFF }
    let t := { s with index := 0xFFFF }
    SameAddress s t ∧ (s.after env [.step]).index = 0x1001 ∧ (t.after env [.step]).index = 1 ∧
      SameAddress (s.after env [.step]) (t.after env [.step]) := by
  intro env s t
  have hmod : 0xFFFF % 4096 = 0xFFF % 4096 := rfl
  have hstart : SameAddress s t := ⟨0xFFFF, rfl, hmod⟩
  have hreplies := replies_of_sameAddress env hstart [.step]
  have hstep := (List.forall₂_cons.1 hreplies).1
  exact ⟨hstart, by decide +kernel, by decide +kernel, hstep.state⟩

end State

end Chip8Vm
