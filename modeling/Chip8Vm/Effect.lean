import Chip8Vm.Display.Sprite
import Chip8Vm.Fault
import Chip8Vm.Reply

/-!
# What instructions do

Each operation acts on a state whose program counter already points behind the instruction, so
a jump overwrites it and a skip adds another word. `execute` gives the state afterwards, also
after a failure, of which only the two stack operations are capable. Where an operation sets the
flag register, the flag is written last and wins when the result goes to the flag register too.
-/

namespace Chip8Vm.State

/-- Passes over the next instruction if the condition holds. -/
def skipIf (condition : Bool) (s : State) : State :=
  if condition then { s with pc := s.pc + 2 } else s

/-- Passing over an instruction touches nothing but the program counter. -/
theorem skipIf_eq (condition : Bool) (s : State) :
    s.skipIf condition = { s with pc := if condition then s.pc + 2 else s.pc } := by
  cases condition <;> rfl

/-- Continues at an address. -/
def jump (target : Int) (s : State) : State := { s with pc := target }

/-- Puts the program counter on the stack and jumps, if there is room for it. -/
def call? (target : Nat) (s : State) : Option State :=
  if h : s.sp < 16 then
    some { s with stack := s.stack.set s.sp s.pc.toNat, sp := s.sp + 1, pc := target }
  else none

/-- Takes the program counter off the stack, if there is an entry in use. -/
def return? (s : State) : Option State :=
  if h : 0 < s.sp ∧ s.sp ≤ 16 then some { s with sp := s.sp - 1, pc := s.stack[s.sp - 1] }
  else none

theorem call?_eq_none_iff {target : Nat} {s : State} : s.call? target = none ↔ 16 ≤ s.sp := by
  unfold call?
  split <;> simp
  · assumption
  · omega

theorem eq_of_call? {target : Nat} {s s' : State} (h : s.call? target = some s') :
    ∃ hsp : s.sp < 16,
      s' = { s with stack := s.stack.set s.sp s.pc.toNat hsp, sp := s.sp + 1, pc := target } := by
  unfold call? at h
  split at h
  next hsp => exact ⟨hsp, (Option.some.inj h).symm⟩
  next => cases h

theorem return?_eq_none_iff {s : State} : s.return? = none ↔ s.sp = 0 ∨ 16 < s.sp := by
  unfold return?
  split <;> simp <;> omega

theorem eq_of_return? {s s' : State} (h : s.return? = some s') :
    ∃ hsp : 0 < s.sp ∧ s.sp ≤ 16, s' = { s with sp := s.sp - 1, pc := s.stack[s.sp - 1] } := by
  unfold return? at h
  split at h
  next hsp => exact ⟨hsp, (Option.some.inj h).symm⟩
  next => cases h

/-- Puts out every pixel. -/
def clearDisplay (s : State) : State := { s with display := Frame.blank 32 64, dirty := true }

/-- Draws `n` bytes of memory as a sprite at the column in `x` and the row in `y`; the flag says
whether a lit pixel was put out. -/
def drawSprite (x y : Reg) (n : Nat) (s : State) : State :=
  let d := Sprite.draw (s.reg y) (s.reg x) (s.memory.read s.index n) s.display
  { s.setReg Reg.flag d.collision.toNat with display := d.display, dirty := true }

/-- Sets a register and then the flag. -/
def setFlagged (x : Reg) (v : Nat) (flag : Bool) (s : State) : State :=
  (s.setReg x v).setReg Reg.flag flag.toNat

/-- Adds a byte, without a carry. -/
def addByte (x : Reg) (kk : Nat) (s : State) : State := s.setReg x ((s.reg x + kk) % 256)

/-- Adds a register; the flag is the carry. -/
def addRegister (x y : Reg) (s : State) : State :=
  let total := s.reg x + s.reg y
  s.setFlagged x (total % 256) (decide (255 < total))

/-- Subtracts a register; the flag says that the first was strictly greater. -/
def subtract (x y : Reg) (s : State) : State :=
  s.setFlagged x ((s.reg x + 256 - s.reg y) % 256) (decide (s.reg y < s.reg x))

/-- Subtracts from a register; the flag says that the second was strictly greater. -/
def subtractFrom (x y : Reg) (s : State) : State :=
  s.setFlagged x ((s.reg y + 256 - s.reg x) % 256) (decide (s.reg x < s.reg y))

/-- Halves a register; the flag is the bit that falls out. -/
def shiftRight (x : Reg) (s : State) : State :=
  s.setFlagged x (s.reg x / 2) (s.reg x % 2 == 1)

/-- Doubles a register; the flag is the bit that falls out. -/
def shiftLeft (x : Reg) (s : State) : State :=
  s.setFlagged x (s.reg x * 2 % 256) (s.reg x / 128 % 2 == 1)

/-- Draws the next random byte and keeps the bits of `kk`. -/
def drawRandom (random : Nat → Nat) (x : Reg) (kk : Nat) (s : State) : State :=
  { s.setReg x (random s.drawn &&& kk) with drawn := s.drawn + 1 }

/-- The key whose number a register holds, of which the low four bits count. -/
def keyHeld (x : Reg) (s : State) : Bool := s.keys[lowNibble (s.reg x)]

/-- Starts to wait for a key that goes to a register. -/
def awaitKey (x : Reg) (s : State) : State := { s with waiting := true, keyRegister := x }

/-- Sets the address register. -/
def setIndex (a : Nat) (s : State) : State := { s with index := a }

/-- After a block of registers up to `x`, the address register moves behind it in that mode. -/
def advancePast (x : Reg) (s : State) : State :=
  if s.advanceIndex then { s with index := (s.index + x.val + 1) % 65536 } else s

/-- Moving behind a block touches nothing but the address register. -/
theorem advancePast_eq (x : Reg) (s : State) :
    s.advancePast x =
      { s with index := if s.advanceIndex then (s.index + x.val + 1) % 65536 else s.index } := by
  unfold advancePast
  split <;> rfl

/-- Stores hundreds, tens and ones of a register. -/
def storeDecimal (x : Reg) (s : State) : State :=
  let v := s.reg x
  { s with memory := s.memory.write s.index [v / 100, v / 10 % 10, v % 10] }

/-- Stores the registers up to `x`. -/
def storeRegisters (x : Reg) (s : State) : State :=
  advancePast x
    { s with memory := s.memory.write s.index (s.registers.toList.take (x.val + 1)) }

/-- Loads the registers up to `x`. -/
def loadRegisters (x : Reg) (s : State) : State :=
  advancePast x
    { s with registers := Vector.ofFn fun r : Reg =>
        if r ≤ x then s.memory.byte (s.index + r.val) else s.reg r }

/-- Executes an instruction on a state that has moved on to the next one. The two stack operations
look at the stack before they change anything. -/
def execute (random : Nat → Nat) (i : Instruction) (s : State) : Reply Fault Unit :=
  -- what a failing operation reports: its word and its own address
  let fail (kind : Fault.Kind) : Reply Fault Unit := .refuse ⟨kind, some i.word, s.pc - 2, ""⟩ s
  match i.op with
  | .clearDisplay => .ok () s.clearDisplay
  | .ret => match s.return? with
    | some s' => .ok () s'
    | none => fail .stackUnderflow
  | .system => .ok () s
  | .jump => .ok () (s.jump i.nnn)
  | .call => match s.call? i.nnn with
    | some s' => .ok () s'
    | none => fail .stackOverflow
  | .skipEqualByte => .ok () (s.skipIf (s.reg i.x == i.kk))
  | .skipUnequalByte => .ok () (s.skipIf (s.reg i.x != i.kk))
  | .skipEqual => .ok () (s.skipIf (s.reg i.x == s.reg i.y))
  | .setByte => .ok () (s.setReg i.x i.kk)
  | .addByte => .ok () (s.addByte i.x i.kk)
  | .copy => .ok () (s.setReg i.x (s.reg i.y))
  | .or => .ok () (s.setReg i.x (s.reg i.x ||| s.reg i.y))
  | .and => .ok () (s.setReg i.x (s.reg i.x &&& s.reg i.y))
  | .xor => .ok () (s.setReg i.x (s.reg i.x ^^^ s.reg i.y))
  | .add => .ok () (s.addRegister i.x i.y)
  | .subtract => .ok () (s.subtract i.x i.y)
  | .shiftRight => .ok () (s.shiftRight i.x)
  | .subtractFrom => .ok () (s.subtractFrom i.x i.y)
  | .shiftLeft => .ok () (s.shiftLeft i.x)
  | .skipUnequal => .ok () (s.skipIf (s.reg i.x != s.reg i.y))
  | .setIndex => .ok () (s.setIndex i.nnn)
  | .jumpOffset => .ok () (s.jump ((i.nnn + s.reg .first) % 4096 : Nat))
  | .random => .ok () (s.drawRandom random i.x i.kk)
  | .draw => .ok () (s.drawSprite i.x i.y i.n)
  | .skipPressed => .ok () (s.skipIf (s.keyHeld i.x))
  | .skipReleased => .ok () (s.skipIf (!s.keyHeld i.x))
  | .readDelay => .ok () (s.setReg i.x s.delay)
  | .awaitKey => .ok () (s.awaitKey i.x)
  | .setDelay => .ok () { s with delay := s.reg i.x }
  | .setSound => .ok () { s with sound := s.reg i.x }
  | .addIndex => .ok () (s.setIndex ((s.index + s.reg i.x) % 65536))
  | .pointGlyph => .ok () (s.setIndex (Font.start + s.reg i.x * Font.glyphHeight))
  | .storeDecimal => .ok () (s.storeDecimal i.x)
  | .storeRegisters => .ok () (s.storeRegisters i.x)
  | .loadRegisters => .ok () (s.loadRegisters i.x)

end Chip8Vm.State
