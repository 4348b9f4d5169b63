/-!
# Memory

Four thousand and ninety-six bytes, kept as natural numbers, and addresses that wrap round:
every address counts modulo 4096. All blocks move through `read` and `write`. `read_write`
says that a block reads back as it was written, also across the end of memory, and
`byte_write_of_ne` that nothing outside the block changes. A block that ends within memory does
not wrap: it takes the place of as many bytes as it has (`toList_write`).
-/

namespace Chip8Vm

abbrev Memory := Vector Nat 4096

namespace Memory

/-- Where programs are put and where they start. -/
def programStart : Nat := 512

/-- The byte at an address. -/
def byte (m : Memory) (a : Nat) : Nat := m[Fin.ofNat 4096 a]

/-- Memory with one byte replaced. -/
def put (m : Memory) (a v : Nat) : Memory := m.set (a % 4096) v (Nat.mod_lt a (by decide))

/-- The `n` bytes from `a` on. -/
def read (m : Memory) (a n : Nat) : List Nat := (List.range n).map fun i => m.byte (a + i)

/-- Puts a block of bytes at `a`, one after the other. -/
def write (m : Memory) (a : Nat) : List Nat → Memory
  | [] => m
  | b :: bs => write (m.put a b) (a + 1) bs

/-- The big-endian word at `a`. -/
def word (m : Memory) (a : Nat) : Nat := m.byte a * 256 + m.byte (a + 1)

/-- The byte at an address below 4096; down to −4096, addresses count back from the end. -/
def byte? (m : Memory) (a : Int) : Option Nat :=
  if -4096 ≤ a ∧ a < 4096 then some (m.byte (a % 4096).toNat) else none

/-- The word whose two bytes `byte?` finds. -/
def word? (m : Memory) (a : Int) : Option Nat := do
  let high ← m.byte? a
  let low ← m.byte? (a + 1)
  return high * 256 + low

theorem byte_mod (m : Memory) (a : Nat) : m.byte (a % 4096) = m.byte a := by
  simp [byte]

theorem byte_put (m : Memory) (a v c : Nat) :
    (m.put a v).byte c = if a % 4096 = c % 4096 then v else m.byte c := by
  simp [byte, put, Vector.getElem_set]

theorem byte_write_of_ne {c : Nat} (bs : List Nat) (m : Memory) (a : Nat)
    (h : ∀ i < bs.length, (a + i) % 4096 ≠ c % 4096) : (m.write a bs).byte c = m.byte c := by
  induction bs generalizing m a with
  | nil => rfl
  | cons b bs ih =>
    rw [write, ih _ _ fun i hi => ?_, byte_put, if_neg (by simpa using h 0 (by simp))]
    rw [Nat.add_assoc, Nat.add_comm 1]
    exact h (i + 1) (by simpa using hi)

/-- A block no longer than memory keeps all its bytes. -/
theorem byte_write_add (bs : List Nat) (m : Memory) (a : Nat) (hlen : bs.length ≤ 4096) (i : Nat)
    (hi : i < bs.length) : (m.write a bs).byte (a + i) = bs[i] := by
  induction bs generalizing m a i with
  | nil => simp at hi
  | cons b bs ih =>
    simp only [List.length_cons] at hlen hi
    cases i with
    | zero =>
      -- the bytes that follow wrap round to `a` only after a whole memory
      rw [write, byte_write_of_ne bs _ _ fun j hj => by omega, byte_put]
      simp
    | succ i =>
      rw [write, show a + (i + 1) = a + 1 + i by omega, ih _ _ (by omega) _ (by omega)]
      rfl

/-- Two blocks that follow each other are one. -/
theorem write_append (bs cs : List Nat) (m : Memory) (a : Nat) :
    m.write a (bs ++ cs) = (m.write a bs).write (a + bs.length) cs := by
  induction bs generalizing m a with
  | nil => rfl
  | cons b bs ih =>
    rw [List.cons_append, write, ih, write, List.length_cons, Nat.add_assoc, Nat.add_comm 1]

/-- The last byte of a block goes behind the others. -/
theorem write_concat (bs : List Nat) (m : Memory) (a b : Nat) :
    m.write a (bs ++ [b]) = (m.write a bs).put (a + bs.length) b :=
  write_append bs [b] m a

theorem length_read (m : Memory) (a n : Nat) : (m.read a n).length = n := by
  simp [read]

theorem read_write (bs : List Nat) (m : Memory) (a : Nat) (hlen : bs.length ≤ 4096) :
    (m.write a bs).read a bs.length = bs := by
  refine List.ext_getElem (length_read ..) fun i _ hi => ?_
  simp only [read, List.getElem_map, List.getElem_range]
  exact byte_write_add bs m a hlen i hi

theorem getElem_toList (m : Memory) {a : Nat} (ha : a < m.toList.length) : m.toList[a] = m.byte a := by
  have hlt : a < 4096 := by simpa using ha
  simp [byte, Nat.mod_eq_of_lt hlt]

/-- A block that ends within memory replaces the bytes at its place. -/
theorem byte_write (m : Memory) {a : Nat} {bs : List Nat} (hend : a + bs.length ≤ 4096) {c : Nat}
    (hc : c < 4096) :
    (m.write a bs).byte c = if a ≤ c then bs[c - a]?.getD (m.byte c) else m.byte c := by
  by_cases hin : a ≤ c ∧ c < a + bs.length
  · have hk : c - a < bs.length := by omega
    have hbyte := byte_write_add bs m a (by omega) (c - a) hk
    rw [show a + (c - a) = c by omega] at hbyte
    rw [if_pos hin.1, List.getElem?_eq_getElem hk, Option.getD_some, hbyte]
  · rw [byte_write_of_ne bs m a fun i hi => by omega]
    split
    · rw [List.getElem?_eq_none (by omega), Option.getD_none]
    · rfl

/-- Memory is then what stood in front of the block, the block, and what stood behind it. -/
theorem toList_write (m : Memory) {a : Nat} {bs : List Nat} (hend : a + bs.length ≤ 4096) :
    (m.write a bs).toList = m.toList.take a ++ bs ++ m.toList.drop (a + bs.length) := by
  have hfront : (m.toList.take a).length = a := by
    rw [List.length_take, Vector.length_toList]
    omega
  refine List.ext_getElem ?_ fun c hc hc' => ?_
  · rw [List.length_append, List.length_append, hfront, List.length_drop, Vector.length_toList,
      Vector.length_toList]
    omega
  · have hlt : c < 4096 := by simpa using hc
    rw [getElem_toList, byte_write m hend hlt]
    by_cases hin : c < a + bs.length
    · rw [List.getElem_append_left (by rw [List.length_append, hfront]; exact hin)]
      by_cases hbefore : c < a
      · rw [List.getElem_append_left (by rw [hfront]; exact hbefore), List.getElem_take,
          getElem_toList, if_neg (by omega)]
      · have hk : c - a < bs.length := by omega
        rw [List.getElem_append_right (by rw [hfront]; omega), if_pos (by omega)]
        simp only [hfront, List.getElem?_eq_getElem hk, Option.getD_some]
    · rw [List.getElem_append_right (by rw [List.length_append, hfront]; omega), List.getElem_drop,
        getElem_toList, if_pos (by omega), List.getElem?_eq_none (by omega), Option.getD_none,
        List.length_append, hfront]
      congr 1
      omega

end Memory

end Chip8Vm
