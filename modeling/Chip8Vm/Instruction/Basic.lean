/-!
# Instructions

An instruction is the kind of operation together with the word it was decoded from. The
operand fields are read off the low sixteen bits of that word: two register numbers `x` and
`y`, a nibble `n`, a byte `kk` and an address `nnn`. Every field is defined for every
instruction, whether or not the operation uses it.
-/

namespace Chip8Vm

/-- A register number, `V0` to `VF`. -/
abbrev Reg := Fin 16

/-- The low four bits of a number, as the number of a register or of a key. -/
def lowNibble (n : Nat) : Fin 16 := ⟨n % 16, Nat.mod_lt n (by decide)⟩

/-- `V0`, which is added to the target of an offset jump. -/
def Reg.first : Reg := lowNibble 0

/-- `VF`, which doubles as the carry, borrow and collision flag. -/
def Reg.flag : Reg := lowNibble 15

/-- The thirty-five operations. -/
inductive Op
  | clearDisplay
  | ret
  | system
  | jump
  | call
  | skipEqualByte
  | skipUnequalByte
  | skipEqual
  | setByte
  | addByte
  | copy
  | or
  | and
  | xor
  | add
  | subtract
  | shiftRight
  | subtractFrom
  | shiftLeft
  | skipUnequal
  | setIndex
  | jumpOffset
  | random
  | draw
  | skipPressed
  | skipReleased
  | readDelay
  | awaitKey
  | setDelay
  | setSound
  | addIndex
  | pointGlyph
  | storeDecimal
  | storeRegisters
  | loadRegisters
deriving DecidableEq, Repr

/-- An operation and the word it was decoded from, which may be any integer. -/
structure Instruction where
  op : Op
  word : Int
deriving DecidableEq, Repr

/-- The low sixteen bits of a word, with endless sign bits for a negative one. -/
def lowWord (word : Int) : Nat := (word % 65536).toNat

theorem lowWord_lt (word : Int) : lowWord word < 65536 := by
  unfold lowWord; omega

/-- A sixteen-bit word is its own low part. -/
theorem lowWord_natCast {w : Nat} (h : w < 65536) : lowWord (w : Int) = w := by
  unfold lowWord; omega

theorem lowWord_eq_iff {u v : Int} : lowWord u = lowWord v ↔ u % 65536 = v % 65536 := by
  unfold lowWord; omega

namespace Instruction

/-- The second nibble: the first register operand. -/
def x (i : Instruction) : Reg := lowNibble (lowWord i.word / 256)

/-- The third nibble: the second register operand. -/
def y (i : Instruction) : Reg := lowNibble (lowWord i.word / 16)

/-- The lowest nibble: the number of rows of a sprite. -/
def n (i : Instruction) : Nat := lowWord i.word % 16

/-- The low byte. -/
def kk (i : Instruction) : Nat := lowWord i.word % 256

/-- The low twelve bits: an address. -/
def nnn (i : Instruction) : Nat := lowWord i.word % 4096

theorem kk_lt (i : Instruction) : i.kk < 256 := Nat.mod_lt _ (by decide)

theorem nnn_lt (i : Instruction) : i.nnn < 4096 := Nat.mod_lt _ (by decide)

end Instruction

end Chip8Vm
