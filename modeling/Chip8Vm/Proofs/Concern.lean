import Chip8Vm.Step

/-!
# What an instruction is not concerned with

Apart from memory, registers, the program counter and the wait, a state has cells that only a few
instructions look at or write to. `Op.cells` lists them for each operation, and an `Edit` gives some
of them other contents. `execute_edit` says that an instruction and an edit of cells that it is not
concerned with may change places: the instruction does the same as without the edit, and leaves what
was edited as it is.
-/

namespace Chip8Vm

/-- The cells that few instructions are concerned with. -/
inductive Cell
  | index
  | stack
  | keys
  | delay
  | sound
  | dirty
  | keyRegister
  | drawn
deriving DecidableEq

/-- The cells that an operation looks at or writes to. -/
def Op.cells : Op → List Cell
  | .clearDisplay => [.dirty]
  | .ret | .call => [.stack]
  | .setIndex | .addIndex | .pointGlyph => [.index]
  | .storeDecimal | .storeRegisters | .loadRegisters => [.index]
  | .random => [.drawn]
  | .draw => [.index, .dirty]
  | .skipPressed | .skipReleased => [.keys]
  | .readDelay | .setDelay => [.delay]
  | .setSound => [.sound]
  | .awaitKey => [.keyRegister]
  | _ => []

/-- A change to each of the cells, which by default is none. -/
structure Edit where
  index : Nat → Nat := id
  stack : Vector Nat 16 → Vector Nat 16 := id
  keys : Vector Bool 16 → Vector Bool 16 := id
  delay : Nat → Nat := id
  sound : Nat → Nat := id
  dirty : Bool → Bool := id
  keyRegister : Reg → Reg := id
  drawn : Nat → Nat := id

namespace Edit

/-- The edit leaves a cell alone. -/
def Keeps (e : Edit) : Cell → Prop
  | .index => e.index = id
  | .stack => e.stack = id
  | .keys => e.keys = id
  | .delay => e.delay = id
  | .sound => e.sound = id
  | .dirty => e.dirty = id
  | .keyRegister => e.keyRegister = id
  | .drawn => e.drawn = id

/-- The state with its cells changed. -/
def apply (e : Edit) (s : State) : State :=
  { s with
    index := e.index s.index
    stack := e.stack s.stack
    keys := e.keys s.keys
    delay := e.delay s.delay
    sound := e.sound s.sound
    dirty := e.dirty s.dirty
    keyRegister := e.keyRegister s.keyRegister
    drawn := e.drawn s.drawn }

end Edit

namespace State

variable {random random' : Nat → Nat} {i : Instruction} {s : State} {e : Edit}

theorem return?_edit (hstack : e.Keeps .stack) : (e.apply s).return? = s.return?.map e.apply := by
  have hsame : e.stack = id := hstack
  by_cases hsp : 0 < s.sp ∧ s.sp ≤ 16
  · simp [return?, Edit.apply, hsp, hsame]
  · simp [return?, Edit.apply, hsp]

theorem call?_edit (hstack : e.Keeps .stack) (target : Nat) :
    (e.apply s).call? target = (s.call? target).map e.apply := by
  have hsame : e.stack = id := hstack
  by_cases hsp : s.sp < 16
  · simp [call?, Edit.apply, hsp, hsame]
  · simp [call?, Edit.apply, hsp]

theorem skipIf_edit (condition : Bool) (s : State) :
    (e.apply s).skipIf condition = e.apply (s.skipIf condition) := by
  simp only [skipIf_eq, Edit.apply]

/-- **An instruction leaves alone what it is not concerned with**, and does not depend on it. -/
theorem execute_edit (random : Nat → Nat) (h : ∀ c ∈ i.op.cells, e.Keeps c) (s : State) :
    (e.apply s).execute random i =
      { s.execute random i with state := e.apply (s.execute random i).state } := by
  unfold execute
  cases hop : i.op with
  | ret =>
    rw [return?_edit (h .stack (by simp [hop, Op.cells]))]
    cases s.return? <;> rfl
  | call =>
    rw [call?_edit (h .stack (by simp [hop, Op.cells]))]
    cases s.call? i.nnn <;> rfl
  | skipEqualByte | skipUnequalByte | skipEqual | skipUnequal =>
    simp only [skipIf_edit]
    rfl
  | skipPressed | skipReleased =>
    have hkeys : e.keys = id := h .keys (by simp [hop, Op.cells])
    have hheld : (e.apply s).keyHeld i.x = s.keyHeld i.x := by
      simp only [keyHeld, Edit.apply, hkeys, id]
      rfl
    simp only [hheld, skipIf_edit]
    rfl
  | clearDisplay =>
    have hdirty : e.dirty = id := h .dirty (by simp [hop, Op.cells])
    simp only [Reply.ok, clearDisplay, Edit.apply, hdirty, id]
  | draw =>
    have hindex : e.index = id := h .index (by simp [hop, Op.cells])
    have hdirty : e.dirty = id := h .dirty (by simp [hop, Op.cells])
    simp only [Reply.ok, drawSprite, setReg, Edit.apply, hindex, hdirty, id]
    rfl
  | random =>
    have hdrawn : e.drawn = id := h .drawn (by simp [hop, Op.cells])
    simp only [Reply.ok, drawRandom, setReg, Edit.apply, hdrawn, id]
  | readDelay | setDelay =>
    have hdelay : e.delay = id := h .delay (by simp [hop, Op.cells])
    simp only [Reply.ok, reg, setReg, Edit.apply, hdelay, id]
  | setSound =>
    have hsound : e.sound = id := h .sound (by simp [hop, Op.cells])
    simp only [Reply.ok, Edit.apply, hsound, id]
    rfl
  | awaitKey =>
    have hregister : e.keyRegister = id := h .keyRegister (by simp [hop, Op.cells])
    simp only [Reply.ok, awaitKey, Edit.apply, hregister, id]
  | setIndex | addIndex | pointGlyph =>
    have hindex : e.index = id := h .index (by simp [hop, Op.cells])
    simp only [Reply.ok, reg, setIndex, Edit.apply, hindex, id]
  | storeDecimal | storeRegisters | loadRegisters =>
    have hindex : e.index = id := h .index (by simp [hop, Op.cells])
    simp only [Reply.ok, reg, storeDecimal, storeRegisters, loadRegisters, advancePast_eq, Edit.apply,
      hindex, id]
  -- the others have no cell to look at
  | _ => rfl

/-- What an edit of such cells would not change in a state, it would not change afterwards either. -/
theorem apply_execute (random : Nat → Nat) (h : ∀ c ∈ i.op.cells, e.Keeps c)
    (hs : e.apply s = s) : e.apply (s.execute random i).state = (s.execute random i).state := by
  have hedit := execute_edit random h s
  rw [hs] at hedit
  exact (congrArg Reply.state hedit).symm

end State

end Chip8Vm
