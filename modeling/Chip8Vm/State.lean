import Chip8Vm.Display.Frame
import Chip8Vm.Font
import Chip8Vm.Instruction.Basic
import Chip8Vm.Memory

/-!
# The state of the machine

Everything the machine holds, as plain data. Cells are natural numbers without a bound of
their own: that bytes stay below 256 and addresses in range is a fact about the operations.
The program counter is an integer, since it may be put anywhere before the next fetch looks at
it. Of the source of random bytes the state holds only how many have been drawn.
-/

namespace Chip8Vm

structure State where
  memory : Memory
  registers : Vector Nat 16
  /-- The address register. -/
  index : Nat
  pc : Int
  stack : Vector Nat 16
  /-- How many entries of the stack are in use. -/
  sp : Nat
  display : Display
  /-- Which keys are held down. -/
  keys : Vector Bool 16
  delay : Nat
  sound : Nat
  /-- Whether the display has changed since it was last shown. -/
  dirty : Bool
  /-- Whether the machine waits for a key. -/
  waiting : Bool
  /-- The register that the awaited key goes to. -/
  keyRegister : Reg
  /-- Whether block transfers leave the address register behind the block. -/
  advanceIndex : Bool
  /-- How many random bytes have been drawn. -/
  drawn : Nat
deriving DecidableEq

namespace State

/-- The machine as it is switched on. -/
def fresh (advanceIndex : Bool) : State where
  memory := Memory.write (Vector.replicate 4096 0) Font.start Font.bytes
  registers := Vector.replicate 16 0
  index := 0
  pc := Memory.programStart
  stack := Vector.replicate 16 0
  sp := 0
  display := Frame.blank 32 64
  keys := Vector.replicate 16 false
  delay := 0
  sound := 0
  dirty := true
  waiting := false
  keyRegister := .first
  advanceIndex := advanceIndex
  drawn := 0

/-- Switched on again: only the index mode and the place in the random source are kept. -/
def reset (s : State) : State := { fresh s.advanceIndex with drawn := s.drawn }

/-- The display counts as shown from here on. -/
def clearDirty (s : State) : State := { s with dirty := false }

/-- Both timers count down by one and stop at zero. -/
def tickTimers (s : State) : State := { s with delay := s.delay - 1, sound := s.sound - 1 }

/-- The content of a register. -/
def reg (s : State) (x : Reg) : Nat := s.registers[x]

/-- Replaces the content of a register. -/
def setReg (s : State) (x : Reg) (v : Nat) : State := { s with registers := s.registers.set x v }

theorem reg_setReg (s : State) (x y : Reg) (v : Nat) :
    (s.setReg x v).reg y = if x = y then v else s.reg y := by
  simp [reg, setReg, Vector.getElem_set, Fin.ext_iff]

/-- The word to execute, if the program counter points at two bytes of memory. -/
def fetch? (s : State) : Option Nat :=
  if 0 ≤ s.pc ∧ s.pc + 1 < 4096 then some (s.memory.word s.pc.toNat) else none

theorem fetch?_eq_none_iff {s : State} : s.fetch? = none ↔ s.pc < 0 ∨ 4096 ≤ s.pc + 1 := by
  unfold fetch?
  split <;> simp <;> omega

theorem fetch?_eq_some_iff {s : State} {w : Nat} :
    s.fetch? = some w ↔ (0 ≤ s.pc ∧ s.pc + 1 < 4096) ∧ s.memory.word s.pc.toNat = w := by
  unfold fetch?
  split <;> simp [*]

end State

end Chip8Vm
