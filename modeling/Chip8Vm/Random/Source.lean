import Chip8Vm.Random.Twister

/-!
# Random sources

Where the machine's random bytes come from: a seeded twister, a list of bytes that starts over
at its end, or nothing but zeros. A source gives each byte by its place in the stream, so that
nothing has to be rewound or carried along. Of a twister the first blocks are kept once they
are computed; `byte_ofSeed` says that this does not show.
-/

namespace Chip8Vm

inductive RandomSource
  /-- The outputs of a block and of those that follow it, of which the first ones are kept. -/
  | twister (block : Twister) (kept : Array (Thunk Twister))
  | cycle (bytes : Array Nat)
  | silent

namespace RandomSource

/-- How many blocks of a twister are kept. -/
def keptBlocks : Nat := 1024

/-- The source that a seed determines. -/
def ofSeed (seed : Int) : RandomSource :=
  let block := (Twister.ofSeed seed).twist
  .twister block (Twister.blocks keptBlocks (.pure block)).toArray

/-- The byte at a place in the stream. -/
def byte : RandomSource → Nat → Nat
  | .twister block kept, k =>
    match kept[k / 624]? with
    | some later => later.get.byteOf (k % 624)
    | none => block.byte k
  | .cycle bytes, k => bytes.getD (k % bytes.size) 0
  | .silent, _ => 0

/-- The stream of a seed is that of the block after the seeded one. -/
theorem byte_ofSeed (seed : Int) (k : Nat) :
    (ofSeed seed).byte k = (Twister.ofSeed seed).twist.byte k := by
  simp only [ofSeed, byte, List.getElem?_toArray]
  split
  · next later h =>
    obtain ⟨hi, rfl⟩ := List.getElem?_eq_some_iff.1 h
    rw [Twister.get_getElem_blocks, Twister.byte, Thunk.get, Thunk.pure]
  · rfl

end RandomSource

end Chip8Vm
