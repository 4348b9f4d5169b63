import Chip8Vm.Proofs.BlockTransfer
import Chip8Vm.Proofs.WellFormed

/-!
# Decimal digits

One operation takes a register apart into hundreds, tens and ones, which go to memory, and a load of
three registers from there puts them into the first three. Both count from the address register, and
the block that is stored reads back as it is wherever that points, also across the end of memory
(`read_storeDecimal`). All digits are in memory before a register is overwritten, so that it does not
matter which one they came from (`spells_loadRegisters`). `decimal_digits_read_back` says so of the two
operations by themselves and of two steps in a row.
-/

namespace Chip8Vm.State

variable {s t : State}

/-- The first three registers hold hundreds, tens and ones of a number. -/
structure Spells (v : Nat) (s : State) : Prop where
  hundreds : s.reg 0 ≤ 9
  tens : s.reg 1 ≤ 9
  ones : s.reg 2 ≤ 9
  value : 100 * s.reg 0 + 10 * s.reg 1 + s.reg 2 = v

/-- Where the address register points, a store leaves the three digits. -/
theorem read_storeDecimal (x : Reg) (s : State) :
    (s.storeDecimal x).memory.read s.index 3 = [s.reg x / 100, s.reg x / 10 % 10, s.reg x % 10] := by
  have hlen : [s.reg x / 100, s.reg x / 10 % 10, s.reg x % 10].length ≤ 4096 := by
    rw [List.length_cons, List.length_cons, List.length_singleton]
    decide
  exact Memory.read_write _ _ _ hlen

theorem reg_loadRegisters {x r : Reg} (hr : r ≤ x) :
    (s.loadRegisters x).reg r = s.memory.byte (s.index + r.val) :=
  s.reg_loadBlock ⟨x, s.registers⟩ hr

/-- A load that finds the digits of a byte spells it. -/
theorem spells_loadRegisters {v : Nat} (hv : v < 256)
    (hread : s.memory.read s.index 3 = [v / 100, v / 10 % 10, v % 10]) :
    (s.loadRegisters 2).Spells v := by
  have hfirst : (s.loadRegisters 2).reg 0 = s.memory.byte s.index := reg_loadRegisters (by decide)
  have hsecond : (s.loadRegisters 2).reg 1 = s.memory.byte (s.index + 1) :=
    reg_loadRegisters (by decide)
  have hthird : (s.loadRegisters 2).reg 2 = s.memory.byte (s.index + 2) :=
    reg_loadRegisters (by decide)
  have hbytes : [s.memory.byte s.index, s.memory.byte (s.index + 1), s.memory.byte (s.index + 2)] =
      [v / 100, v / 10 % 10, v % 10] := hread
  simp only [List.cons.injEq, and_true] at hbytes
  exact ⟨by omega, by omega, by omega, by omega⟩

/-- Digits are loaded back from where they were stored, whichever register they came from. -/
theorem spells_load_store (h : s.Sound) (x : Reg) (hmemory : t.memory = (s.storeDecimal x).memory)
    (hindex : t.index = s.index) : (t.loadRegisters 2).Spells (s.reg x) := by
  refine spells_loadRegisters (h.registers x) ?_
  rw [hmemory, hindex]
  exact s.read_storeDecimal x

theorem execute_storeDecimal (random : Nat → Nat) (s : State) {i : Instruction}
    (hi : i.op = .storeDecimal) : s.execute random i = .ok () (s.storeDecimal i.x) := by
  simp only [execute, hi]

theorem execute_loadRegisters (random : Nat → Nat) (s : State) {i : Instruction}
    (hi : i.op = .loadRegisters) : s.execute random i = .ok () (s.loadRegisters i.x) := by
  simp only [execute, hi]

/-- Two steps that store digits and load them spell the register. -/
theorem spells_step_step {random : Nat → Nat} {tracing : Bool} (h : s.Sound) {i j : Instruction}
    (hi : i.op = .storeDecimal) (hj : j.op = .loadRegisters) (hlast : j.x = 2)
    (hstore : (s.step random tracing).result = .ok (some i))
    (hload : ((s.step random tracing).state.step random tracing).result = .ok (some j)) :
    ((s.step random tracing).state.step random tracing).state.Spells (s.reg i.x) := by
  obtain ⟨-, -, -, -, -, hstored⟩ := executes_of_result hstore
  obtain ⟨-, -, -, -, -, hloaded⟩ := executes_of_result hload
  rw [execute_storeDecimal random _ hi] at hstored
  rw [execute_loadRegisters random _ hj, hlast] at hloaded
  -- the move to the next instruction touches neither memory nor the address register
  have hmemory : (s.step random tracing).state.memory = (s.storeDecimal i.x).memory := by
    rw [hstored]
    rfl
  have hindex : (s.step random tracing).state.index = s.index := by
    rw [hstored]
    rfl
  rw [hloaded]
  exact spells_load_store h i.x hmemory hindex

/-- **Decimal digits read back.** Storing the digits of a register and loading three registers spells
what it held, whichever register it was and wherever the address register points; the store changes
none but the three bytes there and no register. Two steps in a row spell the register, too. -/
theorem decimal_digits_read_back (random : Nat → Nat) (tracing : Bool) (h : s.Sound)
    {i j : Instruction} (hi : i.op = .storeDecimal) (hj : j.op = .loadRegisters) (hlast : j.x = 2) :
    let stored := s.execute random i
    let loaded := stored.state.execute random j
    let stepped := s.step random tracing
    let steppedOn := stepped.state.step random tracing
    (stored.result = .ok () ∧ loaded.result = .ok () ∧ loaded.state.Spells (s.reg i.x)) ∧
    (∀ a, (∀ k < 3, (s.index + k) % 4096 ≠ a % 4096) →
      stored.state.memory.byte a = s.memory.byte a) ∧
    stored.state.registers = s.registers ∧
    (stepped.result = .ok (some i) → steppedOn.result = .ok (some j) →
      steppedOn.state.Spells (s.reg i.x)) := by
  intro stored loaded stepped steppedOn
  have hstored : stored = .ok () (s.storeDecimal i.x) := execute_storeDecimal random s hi
  have hloaded : loaded = .ok () (stored.state.loadRegisters 2) := by
    rw [← hlast]
    exact execute_loadRegisters random stored.state hj
  refine ⟨⟨by rw [hstored]; rfl, by rw [hloaded]; rfl, ?_⟩, fun a ha => ?_, by rw [hstored]; rfl, ?_⟩
  · rw [hloaded, hstored]
    exact spells_load_store h i.x rfl rfl
  · rw [hstored]
    exact Memory.byte_write_of_ne _ _ _ ha
  · intro hstore hload
    exact spells_step_step h hi hj hlast hstore hload

/-- The digits of `V1` are stored across the end of memory, which is also the end of the range of the
address register, and one of them comes back into `V1`. -/
theorem decimal_digits_read_back_past_the_end :
    let s := { ((fresh true).load [0xF1, 0x33, 0xF2, 0x65]).state with
      registers := Vector.ofFn fun r : Reg => 200 + r.val, index := 0xFFFF }
    let store : Instruction := ⟨.storeDecimal, 0xF133⟩
    let load : Instruction := ⟨.loadRegisters, 0xF265⟩
    s.Sound ∧ ((s.execute id store).state.execute id load).state.Spells 201 ∧
      (s.execute id store).state.memory.byte 2 = s.memory.byte 2 ∧
      ((s.step id false).state.step id false).state.Spells 201 := by
  intro s store load
  have hloaded : ((fresh true).load [0xF1, 0x33, 0xF2, 0x65]).state.Sound := (sound_fresh true).load _
  have hs : s.Sound := { hloaded with
    registers := fun r => by
      show (Vector.ofFn fun r : Reg => 200 + r.val)[r] < 256
      simp only [Fin.getElem_fin, Vector.getElem_ofFn]
      omega
    index := by
      show 0xFFFF < 0x10000
      decide }
  have hstore : store.op = .storeDecimal := rfl
  have hload : load.op = .loadRegisters := rfl
  have hlast : load.x = 2 := by decide
  have hfirst : (s.step id false).executed = [store] := by decide +kernel
  have hnext : ((s.step id false).state.step id false).executed = [load] := by decide +kernel
  obtain ⟨⟨-, -, hspells⟩, hframe, -, hstep⟩ :=
    decimal_digits_read_back id false hs hstore hload hlast
  have hstepped := hstep (Reply.result_of_executed hfirst) (Reply.result_of_executed hnext)
  have hvalue : s.reg store.x = 201 := by decide +kernel
  rw [hvalue] at hspells hstepped
  have houtside : ∀ k < 3, (s.index + k) % 4096 ≠ 2 % 4096 := by decide
  exact ⟨hs, hspells, hframe 2 houtside, hstepped⟩

end Chip8Vm.State
