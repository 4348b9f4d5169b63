import Chip8Vm.Proofs.AddressWrap

/-!
# Blocks of registers

Storing registers and loading them undo each other. In the mode in which the address register is left
behind each block, blocks that are stored one after the other are one block in memory
(`memory_storeBlocks`): the address register wraps round at 65536, which memory does not notice. As
long as that block is no longer than memory no part of it is overwritten by a later one
(`byte_write_middle`), and loads which start where the stores did come upon the same addresses, since
both move the address register alike (`index_transfers`). In the other mode there is one block, and
the address register stays where it is. `loads_undo_stores` covers both.
-/

namespace Chip8Vm

namespace Memory

/-- In blocks that follow each other and are no longer than memory, none overwrites another one. -/
theorem byte_write_middle (m : Memory) (a : Nat) {before block after : List Nat}
    (hlen : before.length + block.length + after.length ≤ 4096) {k : Nat} (hk : k < block.length) :
    (m.write a (before ++ (block ++ after))).byte (a + before.length + k) = block[k] := by
  rw [write_append, write_append, byte_write_of_ne after _ _ fun i hi => by omega]
  exact byte_write_add block _ _ (by omega) k hk

theorem read_succ (m : Memory) (a n : Nat) : m.read a (n + 1) = m.byte a :: m.read (a + 1) n := by
  simp only [read, List.range_succ_eq_map, List.map_cons, List.map_map, Nat.add_zero,
    List.cons.injEq, true_and]
  refine List.map_congr_left fun k _ => ?_
  rw [Function.comp_apply, Nat.succ_eq_add_one, Nat.add_assoc, Nat.add_comm 1]

theorem put_byte (m : Memory) (a : Nat) : m.put a (m.byte a) = m :=
  Vector.set_getElem_self _

/-- Putting a block back that has just been read changes nothing. -/
theorem write_read (m : Memory) (a n : Nat) : m.write a (m.read a n) = m := by
  induction n generalizing a with
  | zero => rfl
  | succ n ih => rw [read_succ, write, put_byte, ih]

end Memory

/-- A block to be transferred: the last of its registers, and what the registers hold. -/
structure Block where
  last : Reg
  registers : Vector Nat 16

namespace Block

/-- How many registers a block has. -/
def size (b : Block) : Nat := b.last.val + 1

/-- How many registers some blocks have together. -/
def total : List Block → Nat
  | [] => 0
  | b :: l => b.size + total l

/-- What a block puts into memory. -/
def bytes (b : Block) : List Nat := b.registers.toList.take b.size

theorem length_bytes (b : Block) : b.bytes.length = b.size := by
  rw [bytes, List.length_take, Vector.length_toList, size]
  omega

theorem getElem_bytes (b : Block) (r : Reg) (h : r.val < b.bytes.length) :
    b.bytes[r.val] = b.registers.get r := by
  simp only [bytes, List.getElem_take, Vector.getElem_toList]
  rfl

theorem length_flatMap_bytes (l : List Block) : (l.flatMap bytes).length = total l := by
  induction l with
  | nil => rfl
  | cons b l ih => rw [List.flatMap_cons, List.length_append, length_bytes, ih, total]

end Block

namespace State

variable {s : State}

/-! ## One block -/

/-- Puts the contents of a block into the registers and stores it. -/
def storeBlock (s : State) (b : Block) : State :=
  { s with registers := b.registers }.storeRegisters b.last

/-- Loads the registers of a block. -/
def loadBlock (s : State) (b : Block) : State := s.loadRegisters b.last

theorem storeBlock_eq (s : State) (b : Block) :
    s.storeBlock b =
      { s with
        registers := b.registers
        memory := s.memory.write s.index b.bytes
        index := if s.advanceIndex then (s.index + b.size) % 65536 else s.index } := by
  rw [storeBlock, storeRegisters, advancePast_eq]
  rfl

theorem loadBlock_eq (s : State) (b : Block) :
    s.loadBlock b =
      { s with
        registers := (s.loadBlock b).registers
        index := if s.advanceIndex then (s.index + b.size) % 65536 else s.index } := by
  rw [loadBlock, loadRegisters, advancePast_eq]
  rfl

theorem reg_loadBlock (s : State) (b : Block) {r : Reg} (hr : r ≤ b.last) :
    (s.loadBlock b).reg r = s.memory.byte (s.index + r.val) := by
  rw [loadBlock, loadRegisters, advancePast_eq]
  simp only [reg, Fin.getElem_fin, Vector.getElem_ofFn]
  exact if_pos hr

/-- What is loaded is the block of memory that the address register points at. -/
theorem bytes_loadBlock (s : State) (b : Block) :
    Block.bytes ⟨b.last, (s.loadBlock b).registers⟩ = s.memory.read s.index b.size := by
  refine List.ext_getElem ?_ fun k hk _ => ?_
  · rw [Block.length_bytes, Memory.length_read]
    rfl
  · have hsize : k < b.last.val + 1 := by rwa [Block.length_bytes] at hk
    have hreg : k < 16 := by omega
    have hloaded := s.reg_loadBlock b (r := ⟨k, hreg⟩) (Nat.le_of_lt_succ hsize)
    rw [Block.getElem_bytes _ ⟨k, hreg⟩ hk]
    simp only [Memory.read, List.getElem_map, List.getElem_range]
    exact hloaded

/-! ## Streams of blocks -/

/-- Stores blocks one after the other. -/
def storeBlocks (s : State) (l : List Block) : State := l.foldl storeBlock s

/-- Loads blocks one after the other. -/
def loadBlocks (s : State) (l : List Block) : State := l.foldl loadBlock s

/-- Transfers that each leave the address register behind their block leave it behind all blocks. -/
theorem index_transfers {transfer : State → Block → State}
    (htransfer : ∀ s b, s.advanceIndex = true →
      (transfer s b).advanceIndex = true ∧ (transfer s b).index = (s.index + b.size) % 65536)
    (hmode : s.advanceIndex = true) (hindex : s.index < 65536) (l : List Block) :
    (l.foldl transfer s).advanceIndex = true ∧
      (l.foldl transfer s).index = (s.index + Block.total l) % 65536 := by
  induction l generalizing s with
  | nil => exact ⟨hmode, (Nat.mod_eq_of_lt hindex).symm⟩
  | cons b l ih =>
    obtain ⟨hmode', hindex'⟩ := htransfer s b hmode
    have hrest := ih hmode' (by omega)
    rw [hindex', Nat.mod_add_mod, Nat.add_assoc] at hrest
    exact hrest

theorem index_storeBlocks (hmode : s.advanceIndex = true) (hindex : s.index < 65536)
    (l : List Block) :
    (s.storeBlocks l).advanceIndex = true ∧
      (s.storeBlocks l).index = (s.index + Block.total l) % 65536 := by
  refine index_transfers (fun t b ht => ?_) hmode hindex l
  rw [storeBlock_eq]
  exact ⟨ht, if_pos ht⟩

theorem index_loadBlocks (hmode : s.advanceIndex = true) (hindex : s.index < 65536)
    (l : List Block) : (s.loadBlocks l).index = (s.index + Block.total l) % 65536 := by
  refine (index_transfers (fun t b ht => ?_) hmode hindex l).2
  rw [loadBlock_eq]
  exact ⟨ht, if_pos ht⟩

/-- Blocks that are stored one after the other are one block in memory. -/
theorem memory_storeBlocks (hmode : s.advanceIndex = true) (l : List Block) :
    (s.storeBlocks l).memory = s.memory.write s.index (l.flatMap Block.bytes) := by
  induction l generalizing s with
  | nil => rfl
  | cons b l ih =>
    have hfirst := s.storeBlock_eq b
    rw [if_pos hmode] at hfirst
    have hrest := ih (s := s.storeBlock b) (by rw [hfirst]; exact hmode)
    -- the range of the address register is a multiple of the size of memory
    have haddress : (s.index + b.size) % 65536 % 4096 = (s.index + b.size) % 4096 := by omega
    have hnext : (s.storeBlock b).memory.write (s.storeBlock b).index (l.flatMap Block.bytes) =
        (s.memory.write s.index b.bytes).write (s.index + b.size) (l.flatMap Block.bytes) := by
      rw [hfirst]
      exact Memory.write_congr _ haddress _
    rw [List.flatMap_cons, Memory.write_append, Block.length_bytes, ← hnext]
    exact hrest

theorem memory_loadBlocks (s : State) (l : List Block) : (s.loadBlocks l).memory = s.memory := by
  induction l generalizing s with
  | nil => rfl
  | cons b l ih =>
    have hfirst : (s.loadBlock b).memory = s.memory := by rw [loadBlock_eq]
    exact (ih (s.loadBlock b)).trans hfirst

/-- The load of a block finds what its store put into memory, whatever blocks are stored before and
after it. -/
theorem reg_loadBlocks (hmode : s.advanceIndex = true) (hindex : s.index < 65536)
    {past later : List Block} {b : Block} (htotal : Block.total (past ++ b :: later) ≤ 4096)
    {r : Reg} (hr : r ≤ b.last) :
    ({ s.storeBlocks (past ++ b :: later) with index := s.index }.loadBlocks (past ++ [b])).reg r =
      b.registers.get r := by
  let back := { s.storeBlocks (past ++ b :: later) with index := s.index }
  have hback : back.advanceIndex = true := (index_storeBlocks hmode hindex _).1
  have hmemory : (back.loadBlocks past).memory =
      s.memory.write s.index (past.flatMap Block.bytes ++ (b.bytes ++ later.flatMap Block.bytes)) := by
    rw [memory_loadBlocks, ← List.flatMap_cons, ← List.flatMap_append]
    exact memory_storeBlocks hmode _
  have hpast : (back.loadBlocks past).index = (s.index + Block.total past) % 65536 :=
    index_loadBlocks hback hindex past
  have hplace : ((back.loadBlocks past).index + r.val) % 4096 =
      (s.index + (past.flatMap Block.bytes).length + r.val) % 4096 := by
    rw [hpast, Block.length_flatMap_bytes]
    omega
  have hlen : (past.flatMap Block.bytes).length + b.bytes.length +
      (later.flatMap Block.bytes).length ≤ 4096 := by
    rw [← Block.length_flatMap_bytes, List.flatMap_append, List.flatMap_cons, List.length_append,
      List.length_append] at htotal
    omega
  have hreg : r.val < b.bytes.length := by
    rw [Block.length_bytes]
    exact Nat.lt_succ_of_le hr
  calc (back.loadBlocks (past ++ [b])).reg r
      = ((back.loadBlocks past).loadBlock b).reg r := by rw [loadBlocks, List.foldl_append]; rfl
    _ = (back.loadBlocks past).memory.byte ((back.loadBlocks past).index + r.val) :=
        reg_loadBlock _ b hr
    _ = b.bytes[r.val] := by
        rw [Memory.byte_congr _ hplace, hmemory]
        exact Memory.byte_write_middle _ _ hlen hreg
    _ = b.registers.get r := b.getElem_bytes r hreg

/-! ## Transfers that leave the address register where it is -/

theorem storeRegisters_stays (hmode : s.advanceIndex = false) (x : Reg) :
    s.storeRegisters x =
      { s with memory := s.memory.write s.index (Block.bytes ⟨x, s.registers⟩) } := by
  have hstay : ¬s.advanceIndex = true := Bool.eq_false_iff.1 hmode
  have hstore := s.storeBlock_eq ⟨x, s.registers⟩
  rw [if_neg hstay] at hstore
  exact hstore

theorem loadRegisters_stays (hmode : s.advanceIndex = false) (x : Reg) :
    s.loadRegisters x = { s with registers := (s.loadRegisters x).registers } := by
  have hstay : ¬s.advanceIndex = true := Bool.eq_false_iff.1 hmode
  have hload := s.loadBlock_eq ⟨x, s.registers⟩
  rw [if_neg hstay] at hload
  exact hload

/-- A block is loaded as it was stored, whatever has come into the registers meanwhile. -/
theorem reg_load_store (hmode : s.advanceIndex = false) (registers : Vector Nat 16) {x r : Reg}
    (hr : r ≤ x) :
    ({ s.storeRegisters x with registers }.loadRegisters x).reg r = s.reg r := by
  let b : Block := ⟨x, s.registers⟩
  have hreg : r.val < b.bytes.length := by
    rw [Block.length_bytes]
    exact Nat.lt_succ_of_le hr
  have hlen : b.bytes.length ≤ 4096 := by
    rw [Block.length_bytes, Block.size]
    omega
  rw [storeRegisters_stays hmode]
  calc (loadBlock { s with memory := s.memory.write s.index b.bytes, registers } b).reg r
      = (s.memory.write s.index b.bytes).byte (s.index + r.val) := reg_loadBlock _ b hr
    _ = b.bytes[r.val] := Memory.byte_write_add _ _ _ hlen _ hreg
    _ = s.reg r := b.getElem_bytes r hreg

/-- Storing what has just been loaded changes nothing in memory. -/
theorem memory_store_load (hmode : s.advanceIndex = false) (x : Reg) :
    ((s.loadRegisters x).storeRegisters x).memory = s.memory := by
  have hloaded := loadRegisters_stays hmode x
  have hbytes := s.bytes_loadBlock ⟨x, s.registers⟩
  have hmode' : (s.loadRegisters x).advanceIndex = false := by rw [hloaded, hmode]
  have hindex : (s.loadRegisters x).index = s.index := by rw [hloaded]
  have hmemory : (s.loadRegisters x).memory = s.memory := by rw [hloaded]
  calc ((s.loadRegisters x).storeRegisters x).memory
      = (s.loadRegisters x).memory.write (s.loadRegisters x).index
          (Block.bytes ⟨x, (s.loadRegisters x).registers⟩) := by rw [storeRegisters_stays hmode']
    _ = s.memory.write s.index (s.memory.read s.index (x.val + 1)) := by
        rw [hindex, hmemory]
        exact congrArg _ hbytes
    _ = s.memory := Memory.write_read ..

/-- **Loads undo stores.** In the mode that moves the address register, loading blocks from where they
were stored finds in each what its store was given, and nothing is written but the bytes of the
blocks, as long as they fit into memory; both ways end behind the last block. In the other mode the
address register stays where it is, and a block that is stored can be loaded and one that is loaded
can be stored again. -/
theorem loads_undo_stores (hindex : s.index < 65536) :
    (s.advanceIndex = true → ∀ l : List Block, Block.total l ≤ 4096 →
      let stored := s.storeBlocks l
      let back := { stored with index := s.index }
      let loaded := back.loadBlocks l
      (∀ past b later, l = past ++ b :: later → ∀ r ≤ b.last,
        (back.loadBlocks (past ++ [b])).reg r = b.registers.get r) ∧
      (∀ a, (∀ k < Block.total l, (s.index + k) % 4096 ≠ a % 4096) →
        stored.memory.byte a = s.memory.byte a) ∧
      loaded.memory = stored.memory ∧
      stored.index = (s.index + Block.total l) % 65536 ∧
      loaded.index = (s.index + Block.total l) % 65536) ∧
    (s.advanceIndex = false → ∀ x : Reg,
      let stored := s.storeRegisters x
      let loaded := s.loadRegisters x
      stored.index = s.index ∧ loaded.index = s.index ∧
      (∀ registers r, r ≤ x →
        ({ stored with registers }.loadRegisters x).reg r = s.reg r) ∧
      (loaded.storeRegisters x).memory = s.memory) := by
  constructor
  · intro hmode l htotal stored back loaded
    have hback : back.advanceIndex = true := (index_storeBlocks hmode hindex l).1
    refine ⟨?_, fun a ha => ?_, memory_loadBlocks back l, (index_storeBlocks hmode hindex l).2,
      index_loadBlocks hback hindex l⟩
    · rintro past b later rfl r hr
      exact reg_loadBlocks hmode hindex htotal hr
    · show (s.storeBlocks l).memory.byte a = s.memory.byte a
      rw [memory_storeBlocks hmode]
      exact Memory.byte_write_of_ne _ _ _ (by rwa [Block.length_flatMap_bytes])
  · intro hmode x stored loaded
    have hstored : stored = _ := storeRegisters_stays hmode x
    have hloaded : loaded = _ := loadRegisters_stays hmode x
    refine ⟨by rw [hstored], by rw [hloaded], fun registers r hr => ?_, ?_⟩
    · exact reg_load_store hmode registers hr
    · exact memory_store_load hmode x

/-- Five registers in two blocks are stored across the end of memory, which is also the end of the
range of the address register. In the other mode, four are stored across the end and loaded into
registers that were cleared. -/
theorem loads_undo_stores_past_the_end :
    let s := { fresh true with index := 0xFFFE }
    let first : Block := ⟨2, Vector.ofFn fun r : Reg => r.val + 10⟩
    let second : Block := ⟨1, Vector.ofFn fun r : Reg => r.val + 20⟩
    let stored := s.storeBlocks [first, second]
    let back := { stored with index := s.index }
    stored.memory.byte 2 = 21 ∧ stored.memory.byte 3 = s.memory.byte 3 ∧ stored.index = 3 ∧
      (back.loadBlocks [first, second]).reg 1 = 21 ∧ (back.loadBlocks [first]).reg 2 = 12 ∧
      let still := { fresh false with registers := second.registers, index := 0xFFE }
      ({ still.storeRegisters 3 with registers := .replicate 16 0 }.loadRegisters 3).reg 2 = 22 := by
  intro s first second stored back
  have hindex : s.index < 65536 := by decide
  have hstreams := (loads_undo_stores hindex).1 rfl [first, second] (by decide)
  obtain ⟨hload, hframe, -, hend, -⟩ := hstreams
  have houtside : ∀ k < Block.total [first, second], (s.index + k) % 4096 ≠ 3 % 4096 := by decide
  refine ⟨by decide +kernel, hframe 3 houtside, hend.trans (by decide), ?_, ?_, ?_⟩
  · exact hload [first] second [] rfl 1 (by decide)
  · exact hload [] first [second] rfl 2 (by decide)
  · intro still
    have hstill : still.index < 65536 := by decide
    obtain ⟨-, -, hrestored, -⟩ := (loads_undo_stores hstill).2 rfl 3
    exact hrestored (.replicate 16 0) 2 (by decide)

end State

end Chip8Vm
