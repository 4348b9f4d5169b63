import Chip8Vm.Text.Numeral

/-!
# The Mersenne twister

A pseudorandom source whose state is a block of 624 words of 32 bits. Seeding stirs the words
of the seed into a fixed block; `twist` replaces a block by the next one; each word of a block
gives, after tempering, one output, of which the machine takes the highest byte.
-/

namespace Chip8Vm

abbrev Twister := Vector UInt32 624

namespace Twister

/-- A word of the block; indices wrap round. -/
def cell (t : Twister) (i : Nat) : UInt32 := t[Fin.ofNat 624 i]

/-- The block with one word replaced. -/
def put (t : Twister) (i : Nat) (v : UInt32) : Twister :=
  t.set (i % 624) v (Nat.mod_lt i (by decide))

/-- A word mixed with its own top bits. -/
def scramble (w : UInt32) : UInt32 := w ^^^ (w >>> 30)

/-- The block that every seed is stirred into. -/
def base : Twister :=
  (List.range 623).foldl
    (fun t i => t.put (i + 1) (1812433253 * scramble (t.cell i) + UInt32.ofNat (i + 1)))
    (Vector.replicate 624 19650218)

/-- Replaces word `i`; the last word is also the first one of the next pass. -/
def stir (t : Twister) (i : Nat) (v : UInt32) : Twister :=
  if i = 623 then (t.put i v).put 0 v else t.put i v

/-- Round `r` of the first pass: adds a word of the key and its position. -/
def absorb (key : Array UInt32) (t : Twister) (r : Nat) : Twister :=
  let i := r % 623 + 1
  let j := r % key.size
  t.stir i ((t.cell i ^^^ (scramble (t.cell (i - 1)) * 1664525)) + key.getD j 0 + UInt32.ofNat j)

/-- Round `r` of the second pass: subtracts the place. -/
def settle (t : Twister) (r : Nat) : Twister :=
  let i := r % 623 + 1
  t.stir i ((t.cell i ^^^ (scramble (t.cell (i - 1)) * 1566083941)) - UInt32.ofNat i)

/-- The 32-bit words of a seed's absolute value, lowest first. -/
def seedWords (seed : Int) : Array UInt32 :=
  ((Numeral.digits 4294967296 seed.natAbs).reverse.map UInt32.ofNat).toArray

/-- The block that a seed determines; its outputs are those of the blocks that follow it. -/
def ofSeed (seed : Int) : Twister :=
  let key := seedWords seed
  let rounds := max 624 key.size
  let absorbed := (List.range rounds).foldl (absorb key) base
  let settled := ((List.range 623).map (rounds + ·)).foldl settle absorbed
  settled.put 0 0x80000000

/-- The next block. -/
def twist (t : Twister) : Twister :=
  (List.range 624).foldl
    (fun t i =>
      let y := (t.cell i &&& 0x80000000) ||| (t.cell (i + 1) &&& 0x7FFFFFFF)
      let odd : UInt32 := if y &&& 1 = 1 then 0x9908B0DF else 0
      t.put i (t.cell (i + 397) ^^^ (y >>> 1) ^^^ odd))
    t

/-- The output that a word of a block gives. -/
def temper (w : UInt32) : UInt32 :=
  let w := w ^^^ (w >>> 11)
  let w := w ^^^ ((w <<< 7) &&& 0x9D2C5680)
  let w := w ^^^ ((w <<< 15) &&& 0xEFC60000)
  w ^^^ (w >>> 18)

/-- The block that comes `n` blocks later. -/
def later : Nat → Twister → Twister
  | 0, t => t
  | n + 1, t => later n t.twist

/-- The random byte that a word of the block gives. -/
def byteOf (t : Twister) (i : Nat) : Nat := (temper (t.cell i) >>> 24).toNat

/-- The `k`-th random byte, counted from the first word of a block. -/
def byte (t : Twister) (k : Nat) : Nat := (later (k / 624) t).byteOf (k % 624)

/-- A block and the `n - 1` blocks after it, each computed when it is first asked for. -/
def blocks : Nat → Thunk Twister → List (Thunk Twister)
  | 0, _ => []
  | n + 1, t => t :: blocks n (Thunk.mk fun _ => t.get.twist)

theorem get_getElem_blocks (n : Nat) (t : Thunk Twister) (i : Nat) (hi : i < (blocks n t).length) :
    (blocks n t)[i].get = later i t.get := by
  induction i generalizing n t with
  | zero =>
    cases n with
    | zero => simp [blocks] at hi
    | succ n => rfl
  | succ i ih =>
    cases n with
    | zero => simp [blocks] at hi
    | succ n =>
      have hrest := ih n (Thunk.mk fun _ => t.get.twist) (by simpa [blocks] using hi)
      simpa only [blocks, List.getElem_cons_succ, later, Thunk.get] using hrest

end Twister

end Chip8Vm
