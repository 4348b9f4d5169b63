import Chip8Vm.Fault
import Chip8Vm.Instruction.Basic

/-!
# The instruction table

A row of the table selects the words whose masked bits have a given value, and a word is
decoded by the first row that selects it. The two exact rows `00E0` and `00EE` therefore stand
before the row for every other word with a zero top nibble. A word that no row selects is a
fault.
-/

namespace Chip8Vm

/-- The words `w` with `w &&& mask = value`, and the operation they carry. -/
structure Pattern where
  mask : Nat
  value : Nat
  op : Op
deriving DecidableEq, Repr

/-- Whether a row selects a sixteen-bit word. -/
def Pattern.selects (p : Pattern) (w : Nat) : Bool := w &&& p.mask == p.value

namespace Instruction

/-- The instruction set. -/
def table : List Pattern :=
  [ ⟨0xFFFF, 0x00E0, .clearDisplay⟩,
    ⟨0xFFFF, 0x00EE, .ret⟩,
    ⟨0xF000, 0x0000, .system⟩,
    ⟨0xF000, 0x1000, .jump⟩,
    ⟨0xF000, 0x2000, .call⟩,
    ⟨0xF000, 0x3000, .skipEqualByte⟩,
    ⟨0xF000, 0x4000, .skipUnequalByte⟩,
    ⟨0xF00F, 0x5000, .skipEqual⟩,
    ⟨0xF000, 0x6000, .setByte⟩,
    ⟨0xF000, 0x7000, .addByte⟩,
    ⟨0xF00F, 0x8000, .copy⟩,
    ⟨0xF00F, 0x8001, .or⟩,
    ⟨0xF00F, 0x8002, .and⟩,
    ⟨0xF00F, 0x8003, .xor⟩,
    ⟨0xF00F, 0x8004, .add⟩,
    ⟨0xF00F, 0x8005, .subtract⟩,
    ⟨0xF00F, 0x8006, .shiftRight⟩,
    ⟨0xF00F, 0x8007, .subtractFrom⟩,
    ⟨0xF00F, 0x800E, .shiftLeft⟩,
    ⟨0xF00F, 0x9000, .skipUnequal⟩,
    ⟨0xF000, 0xA000, .setIndex⟩,
    ⟨0xF000, 0xB000, .jumpOffset⟩,
    ⟨0xF000, 0xC000, .random⟩,
    ⟨0xF000, 0xD000, .draw⟩,
    ⟨0xF0FF, 0xE09E, .skipPressed⟩,
    ⟨0xF0FF, 0xE0A1, .skipReleased⟩,
    ⟨0xF0FF, 0xF007, .readDelay⟩,
    ⟨0xF0FF, 0xF00A, .awaitKey⟩,
    ⟨0xF0FF, 0xF015, .setDelay⟩,
    ⟨0xF0FF, 0xF018, .setSound⟩,
    ⟨0xF0FF, 0xF01E, .addIndex⟩,
    ⟨0xF0FF, 0xF029, .pointGlyph⟩,
    ⟨0xF0FF, 0xF033, .storeDecimal⟩,
    ⟨0xF0FF, 0xF055, .storeRegisters⟩,
    ⟨0xF0FF, 0xF065, .loadRegisters⟩ ]

/-- The instruction that a table gives to a word, looking at its low sixteen bits only. -/
def lookUp (rows : List Pattern) (word : Int) : Option Instruction :=
  (rows.find? (·.selects (lowWord word))).map fun p => ⟨p.op, word⟩

/-- Decodes a word by a table; `pc` is where it was fetched, for the report of an unknown one. -/
def decodeBy (rows : List Pattern) (word pc : Int) : Except Fault Instruction :=
  match lookUp rows word with
  | some i => .ok i
  | none => .error ⟨.unknownOpcode, some word, pc, ""⟩

/-- Decodes a word of the instruction set. -/
def decode (word pc : Int) : Except Fault Instruction := decodeBy table word pc

/-- The word of a decoded instruction is the word it was decoded from. -/
theorem word_of_lookUp {rows : List Pattern} {word : Int} {i : Instruction}
    (h : lookUp rows word = some i) : i.word = word := by
  obtain ⟨p, -, rfl⟩ := Option.map_eq_some_iff.1 h
  rfl

/-- Only the low sixteen bits take part in choosing the operation. -/
theorem lookUp_congr {rows : List Pattern} {u v : Int} (h : lowWord u = lowWord v) :
    (lookUp rows u).map op = (lookUp rows v).map op := by
  simp [lookUp, h, Function.comp_def]

end Instruction

end Chip8Vm
