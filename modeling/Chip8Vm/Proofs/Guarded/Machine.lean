import Chip8Vm.Step

/-!
# The guarded machine

The machine once more, access by access. Every byte of memory, register, stack entry, pixel and
key is reached through a guard that refuses a place which does not exist, and what goes into
memory, onto the stack or onto the display through one that refuses a number which does not fit
its cell. Blocks are copied byte by byte, and sprites are drawn row by row and bit by bit.
-/

namespace Chip8Vm

/-- Why a guard refuses an access. -/
inductive Breach
  /-- There is no byte with this address. -/
  | address (a : Int)
  /-- The number is not a byte. -/
  | byte (v : Nat)
  | register (x : Nat)
  | entry (k : Nat)
  /-- The number does not fit an entry of the stack. -/
  | returnAddress (v : Int)
  | pixel (r c : Nat)
  | key (k : Nat)
deriving DecidableEq, Repr

/-- The outcome of some accesses, unless a guard has refused one of them. -/
abbrev Guarded := Except Breach

namespace Guarded

/-! ## Accesses -/

/-- Reads the byte at an address. -/
def load (a : Int) (s : State) : Guarded Nat :=
  if h : 0 ≤ a ∧ a < 4096 then .ok s.memory[a.toNat] else .error (.address a)

/-- Stores a byte at an address. -/
def store (a : Int) (v : Nat) (s : State) : Guarded State :=
  if h : 0 ≤ a ∧ a < 4096 then
    if v < 256 then .ok { s with memory := s.memory.set a.toNat v } else .error (.byte v)
  else .error (.address a)

/-- Reads a register. -/
def register (x : Nat) (s : State) : Guarded Nat :=
  if h : x < 16 then .ok s.registers[x] else .error (.register x)

/-- Replaces a register, which has no bound of its own. -/
def setRegister (x v : Nat) (s : State) : Guarded State :=
  if h : x < 16 then .ok { s with registers := s.registers.set x v } else .error (.register x)

/-- Reads an entry of the stack. -/
def entry (k : Nat) (s : State) : Guarded Nat :=
  if h : k < 16 then .ok s.stack[k] else .error (.entry k)

/-- Replaces an entry of the stack by a number of sixteen bits. -/
def setEntry (k : Nat) (v : Int) (s : State) : Guarded State :=
  if h : k < 16 then
    if 0 ≤ v ∧ v < 65536 then .ok { s with stack := s.stack.set k v.toNat }
    else .error (.returnAddress v)
  else .error (.entry k)

/-- Reads a pixel. -/
def pixel (r c : Nat) (s : State) : Guarded Nat :=
  if h : r < 32 ∧ c < 64 then .ok (s.display.pixel ⟨r, h.1⟩ ⟨c, h.2⟩) else .error (.pixel r c)

/-- Toggles a pixel, which has to stay a byte. -/
def flip (r c : Nat) (s : State) : Guarded State :=
  if h : r < 32 ∧ c < 64 then
    if s.display.pixel ⟨r, h.1⟩ ⟨c, h.2⟩ ^^^ 1 < 256 then
      .ok { s with display := s.display.toggle ⟨r, h.1⟩ ⟨c, h.2⟩ }
    else .error (.byte (s.display.pixel ⟨r, h.1⟩ ⟨c, h.2⟩ ^^^ 1))
  else .error (.pixel r c)

/-- Whether a key is held down. -/
def key (k : Nat) (s : State) : Guarded Bool :=
  if h : k < 16 then .ok s.keys[k] else .error (.key k)

/-! ## Instructions -/

/-- Replaces a register by what it and another one give. -/
def combine (x y : Nat) (result : Nat → Nat → Nat) (s : State) : Guarded State := do
  let a ← register x s
  let b ← register y s
  setRegister x (result a b) s

/-- Replaces a register by what it and another one give, and then the flag. -/
def combineFlagged (x y : Nat) (result : Nat → Nat → Nat) (flag : Nat → Nat → Bool) (s : State) :
    Guarded State := do
  let a ← register x s
  let b ← register y s
  let s' ← setRegister x (result a b) s
  setRegister 15 (if flag a b then 1 else 0) s'

/-- Passes over the next instruction if two registers compare so. -/
def skipCompared (x y : Nat) (condition : Nat → Nat → Bool) (s : State) : Guarded State := do
  let a ← register x s
  let b ← register y s
  return s.skipIf (condition a b)

/-- One bit of a sprite row, counted from the left. -/
def strikeBit (r left sprite : Nat) (s : State) (bit : Nat) : Guarded State :=
  if sprite &&& (0x80 >>> bit) ≠ 0 then do
    let lit ← pixel r ((left + bit) % 64) s
    let s' ← (if lit ≠ 0 then setRegister 15 1 s else .ok s)
    flip r ((left + bit) % 64) s'
  else .ok s

/-- One row of a sprite; a row without bits is passed over. -/
def strikeRow (top left : Nat) (s : State) (row : Nat) : Guarded State := do
  let sprite ← load ((s.index + row) % 4096 : Nat) s
  if sprite = 0 then return s
  else (List.range 8).foldlM (strikeBit ((top + row) % 32) left sprite) s

/-- Draws a sprite at the column in one register and the row in another. -/
def drawSprite (x y n : Nat) (s : State) : Guarded State := do
  let left ← register x s
  let top ← register y s
  let s' ← setRegister 15 0 s
  let drawn ← (List.range n).foldlM (strikeRow (top % 32) (left % 64)) s'
  return { drawn with dirty := true }

/-- Stores one register of a block. -/
def storeRegister (s : State) (k : Nat) : Guarded State := do
  let v ← register k s
  store ((s.index + k) % 4096 : Nat) v s

/-- Loads one register of a block. -/
def loadRegister (s : State) (k : Nat) : Guarded State := do
  let v ← load ((s.index + k) % 4096 : Nat) s
  setRegister k v s

/-- Stores hundreds, tens and ones of a register. -/
def storeDecimal (x : Nat) (s : State) : Guarded State := do
  let v ← register x s
  let hundreds ← store (s.index % 4096 : Nat) (v / 100) s
  let tens ← store ((s.index + 1) % 4096 : Nat) (v / 10 % 10) hundreds
  store ((s.index + 2) % 4096 : Nat) (v % 10) tens

/-- What an instruction does that the stack does not refuse. -/
def effect (random : Nat → Nat) (i : Instruction) (s : State) : Guarded State := do
  match i.op with
  | .clearDisplay => return s.clearDisplay
  | .ret =>
    let target ← entry (s.sp - 1) s
    return { s with sp := s.sp - 1, pc := target }
  | .system => return s
  | .jump => return { s with pc := i.nnn }
  | .call =>
    let s' ← setEntry s.sp s.pc s
    return { s' with sp := s.sp + 1, pc := i.nnn }
  | .skipEqualByte => return s.skipIf ((← register i.x s) == i.kk)
  | .skipUnequalByte => return s.skipIf ((← register i.x s) != i.kk)
  | .skipEqual => skipCompared i.x i.y (· == ·) s
  | .setByte => setRegister i.x i.kk s
  | .addByte => setRegister i.x (((← register i.x s) + i.kk) &&& 0xFF) s
  | .copy => combine i.x i.y (fun _ b => b) s
  | .or => combine i.x i.y (· ||| ·) s
  | .and => combine i.x i.y (· &&& ·) s
  | .xor => combine i.x i.y (· ^^^ ·) s
  | .add => combineFlagged i.x i.y (fun a b => (a + b) &&& 0xFF) (fun a b => 0xFF < a + b) s
  | .subtract =>
    combineFlagged i.x i.y (fun a b => (((a : Int) - b) % 0x100).toNat) (fun a b => b < a) s
  | .shiftRight => combineFlagged i.x i.x (fun a _ => a >>> 1) (fun a _ => a &&& 1 == 1) s
  | .subtractFrom =>
    combineFlagged i.x i.y (fun a b => (((b : Int) - a) % 0x100).toNat) (fun a b => a < b) s
  | .shiftLeft =>
    combineFlagged i.x i.x (fun a _ => (a <<< 1) &&& 0xFF) (fun a _ => (a >>> 7) &&& 1 == 1) s
  | .skipUnequal => skipCompared i.x i.y (· != ·) s
  | .setIndex => return s.setIndex i.nnn
  | .jumpOffset => return { s with pc := ((i.nnn + (← register 0 s)) &&& 0xFFF : Nat) }
  | .random =>
    let s' ← setRegister i.x (random s.drawn &&& i.kk) s
    return { s' with drawn := s.drawn + 1 }
  | .draw => drawSprite i.x i.y i.n s
  | .skipPressed => return s.skipIf (← key ((← register i.x s) &&& 0xF) s)
  | .skipReleased => return s.skipIf (!(← key ((← register i.x s) &&& 0xF) s))
  | .readDelay => setRegister i.x s.delay s
  | .awaitKey => return s.awaitKey i.x
  | .setDelay => return { s with delay := ← register i.x s }
  | .setSound => return { s with sound := ← register i.x s }
  | .addIndex => return s.setIndex ((s.index + (← register i.x s)) &&& 0xFFFF)
  | .pointGlyph => return s.setIndex ((← register i.x s) * 5)
  | .storeDecimal => storeDecimal i.x s
  | .storeRegisters =>
    return State.advancePast i.x (← (List.range (i.x + 1)).foldlM storeRegister s)
  | .loadRegisters =>
    return State.advancePast i.x (← (List.range (i.x + 1)).foldlM loadRegister s)

/-- Executes an instruction on a state that has moved on to the next one. -/
def execute (random : Nat → Nat) (i : Instruction) (s : State) : Guarded (Reply Fault Unit) := do
  if i.op = .ret ∧ s.sp = 0 then
    return .refuse ⟨.stackUnderflow, some i.word, s.pc - 2, ""⟩ s
  else if i.op = .call ∧ 16 ≤ s.sp then
    return .refuse ⟨.stackOverflow, some i.word, s.pc - 2, ""⟩ s
  else return .ok () (← effect random i s)

/-- One step of the machine. -/
def step (random : Nat → Nat) (tracing : Bool) (s : State) :
    Guarded (Reply Fault (Option Instruction)) := do
  if s.waiting then return .ok none s
  else if s.pc < 0 ∨ 4096 ≤ s.pc + 1 then
    return s.retreat s.pc ⟨.programCounter, none, s.pc, ""⟩
  else
    let high ← load s.pc s
    let low ← load (s.pc + 1) s
    match Instruction.decode ((high <<< 8) ||| low : Nat) s.pc with
    | .error f => return s.retreat s.pc f
    | .ok i =>
      let r ← execute random i { s with pc := s.pc + 2 }
      return Reply.after (s.traceOf tracing i)
        (match r.result with
          | .ok _ => .ok (some i) r.state
          | .error f => r.state.retreat s.pc f)

end Guarded

end Chip8Vm
