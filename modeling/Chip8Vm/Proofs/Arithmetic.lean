import Chip8Vm.Proofs.Footprint
import Chip8Vm.Proofs.Grammar
import Chip8Vm.Proofs.WellFormed

/-!
# Arithmetic with a flag

Five operations work out a flag from their operands besides a result. Whatever the two operands are,
also where they share a register or one of them is the flag register, the flag stands in the flag
register afterwards, since it is written last (`reg_flag_setFlagged`). Where the result has a
register of its own, result and flag together lose nothing: the flag is the carry of a sum, the
borrow of a difference turned round, or the bit that a shift pushes out (`Arithmetic.Exact`). Only
the difference of equal bytes counts as borrowed though nothing was.

`Arithmetic.word` is the word that carries an operation on two registers, and `performed_execute`
what executing it leaves in the registers. `arithmetic_exact` says so of the operation by itself and
of the step that comes upon its word, and that an addition undoes the subtraction before it.
-/

namespace Chip8Vm

/-- The operations that set the flag register besides the register of their result. -/
inductive Arithmetic
  | add
  | subtract
  | shiftRight
  | subtractFrom
  | shiftLeft
deriving DecidableEq

namespace Arithmetic

def op : Arithmetic → Op
  | add => .add
  | subtract => .subtract
  | shiftRight => .shiftRight
  | subtractFrom => .subtractFrom
  | shiftLeft => .shiftLeft

/-- The lowest nibble of the words that carry an operation. -/
def nibble : Arithmetic → Nat
  | add => 0x4
  | subtract => 0x5
  | shiftRight => 0x6
  | subtractFrom => 0x7
  | shiftLeft => 0xE

/-- The word that carries an operation on two registers. -/
def word (o : Arithmetic) (x y : Reg) : Nat := 0x8000 + x.val * 0x100 + y.val * 0x10 + o.nibble

def instruction (o : Arithmetic) (x y : Reg) : Instruction := ⟨o.op, o.word x y⟩

/-- The flag that an operation leaves on operands `a` and `b`. -/
def flag (a b : Nat) : Arithmetic → Nat
  | add => if 255 < a + b then 1 else 0
  | subtract => if b < a then 1 else 0
  | shiftRight => a % 2
  | subtractFrom => if a < b then 1 else 0
  | shiftLeft => a / 128

/-- Result `r` and flag `f` are those of `a` less `b`: the flag says that nothing was borrowed, and
is not set either where nothing is left. -/
def IsDifference (a b r f : Int) : Prop :=
  if a = b then r = 0 ∧ f = 0 else r = a - b + 256 * (1 - f)

/-- Result `r` and flag `f` together are what an operation makes of operands `a` and `b`. -/
def Exact (a b r f : Int) : Arithmetic → Prop
  | add => r + 256 * f = a + b
  | subtract => IsDifference a b r f
  | shiftRight => 2 * r + f = a
  | subtractFrom => IsDifference b a r f
  | shiftLeft => r + 256 * f = 2 * a

/-- An operation on two registers leads from `s` to `t`, as far as registers go. -/
structure Performed (o : Arithmetic) (x y : Reg) (s t : State) : Prop where
  flag : t.reg .flag = o.flag (s.reg x) (s.reg y)
  /-- The flag takes the place of the result if it goes to the same register. -/
  whole : x ≠ .flag → o.Exact (s.reg x) (s.reg y) (t.reg x) (t.reg .flag)
  others : ∀ r, r ≠ x → r ≠ .flag → t.reg r = s.reg r

/-! ## Words -/

section Words

variable (o : Arithmetic) (x y : Reg)

theorem nibble_lt : o.nibble < 16 := by cases o <;> decide

theorem word_lt : o.word x y < 65536 := by
  have hn := o.nibble_lt
  unfold word
  omega

theorem x_instruction : (o.instruction x y).x = x := by
  have hn := o.nibble_lt
  have hx := (Instruction.operands_natCast (o.word_lt x y) o.op).1
  refine Fin.ext (hx.trans ?_)
  unfold word
  omega

theorem y_instruction : (o.instruction x y).y = y := by
  have hn := o.nibble_lt
  have hy := (Instruction.operands_natCast (o.word_lt x y) o.op).2.1
  refine Fin.ext (hy.trans ?_)
  unfold word
  omega

theorem grammar_word : Instruction.grammar (o.word x y) = some o.op := by
  have hn := o.nibble_lt
  have htop : o.word x y / 4096 = 8 := by
    unfold word
    omega
  have hlow : o.word x y % 16 = o.nibble := by
    unfold word
    omega
  rw [Instruction.grammar, htop]
  show Instruction.arithmetic? (o.word x y % 16) = some o.op
  rw [hlow]
  cases o <;> rfl

theorem lookUp_word :
    Instruction.lookUp Instruction.table (o.word x y) = some (o.instruction x y) :=
  Instruction.lookUp_of_grammar (o.word_lt x y) (o.grammar_word x y)

end Words

/-! ## Bytes -/

theorem toNat_decide (p : Prop) [Decidable p] : (decide p).toNat = if p then 1 else 0 :=
  apply_ite Bool.toNat p true false

/-- A number that is a bit is one just as often as that is the case. -/
theorem toNat_beq_one {n : Nat} (hn : n < 2) : (n == 1).toNat = n := by
  rcases (by omega : n = 0 ∨ n = 1) with rfl | rfl
  · rfl
  · rfl

theorem isDifference_mod {a b : Nat} (ha : a < 256) (hb : b < 256) :
    IsDifference a b ((a + 256 - b) % 256 : Nat) (decide (b < a)).toNat := by
  rw [IsDifference, toNat_decide]
  split
  · rw [if_neg (by omega)]
    omega
  · split <;> omega

/-- Bytes of which one is the difference of the others, the flag turned round being its borrow, add
up to where it came from, with the borrow for a carry. -/
theorem IsDifference.add_back {a b r f r' f' : Nat} (ha : a < 256) (hr' : r' < 256)
    (hsub : IsDifference a b r f) (hadd : Exact r b r' f' .add) (hflag : f = if b < a then 1 else 0) :
    r' = a ∧ f' = if a < b then 1 else 0 := by
  rw [IsDifference] at hsub
  rw [Exact] at hadd
  rcases Nat.lt_trichotomy a b with hlt | heq | hgt
  · rw [if_neg (by omega)] at hsub hflag
    rw [if_pos hlt]
    omega
  · rw [if_pos (by omega)] at hsub
    rw [if_neg (by omega)]
    omega
  · rw [if_neg (by omega)] at hsub
    rw [if_pos hgt] at hflag
    rw [if_neg (by omega)]
    omega

/-- An operation writes a byte and then a flag, and these are exact. -/
theorem execute_instruction (random : Nat → Nat) {s : State} (h : s.Sound) (o : Arithmetic)
    (x y : Reg) :
    ∃ r f, s.execute random (o.instruction x y) = .ok () (s.setFlagged x r f) ∧ r < 256 ∧
      f.toNat = o.flag (s.reg x) (s.reg y) ∧ o.Exact (s.reg x) (s.reg y) r f.toNat := by
  have hx := h.registers x
  have hy := h.registers y
  have hop : (o.instruction x y).op = o.op := rfl
  simp only [State.execute, hop, x_instruction, y_instruction]
  cases o with
  | add =>
    refine ⟨_, _, rfl, Nat.mod_lt _ (by decide), toNat_decide _, ?_⟩
    rw [Exact, toNat_decide]
    split <;> omega
  | subtract =>
    exact ⟨_, _, rfl, Nat.mod_lt _ (by decide), toNat_decide _, isDifference_mod hx hy⟩
  | shiftRight =>
    have hbit : s.reg x % 2 < 2 := Nat.mod_lt _ (by decide)
    refine ⟨_, _, rfl, by omega, toNat_beq_one hbit, ?_⟩
    rw [Exact, toNat_beq_one hbit]
    omega
  | subtractFrom =>
    exact ⟨_, _, rfl, Nat.mod_lt _ (by decide), toNat_decide _, isDifference_mod hy hx⟩
  | shiftLeft =>
    have hbit : s.reg x / 128 % 2 < 2 := Nat.mod_lt _ (by decide)
    have hflag : (s.reg x / 128 % 2 == 1).toNat = s.reg x / 128 := by
      rw [toNat_beq_one hbit]
      omega
    refine ⟨_, _, rfl, Nat.mod_lt _ (by decide), hflag, ?_⟩
    rw [Exact, hflag]
    omega

end Arithmetic

namespace State

variable {random : Nat → Nat} {tracing : Bool} {s : State} {x y : Reg}

/-! ## Registers -/

theorem reg_flag_setFlagged (x : Reg) (v : Nat) (flag : Bool) (s : State) :
    (s.setFlagged x v flag).reg .flag = flag.toNat :=
  (reg_setReg ..).trans (if_pos rfl)

theorem reg_setFlagged_self (hx : x ≠ .flag) (v : Nat) (flag : Bool) (s : State) :
    (s.setFlagged x v flag).reg x = v := by
  rw [setFlagged, reg_setReg, if_neg hx.symm, reg_setReg, if_pos rfl]

/-- An operation leaves flag and result behind, and what was in the other registers. -/
theorem performed_execute (random : Nat → Nat) (h : s.Sound) (o : Arithmetic) (x y : Reg) :
    o.Performed x y s (s.execute random (o.instruction x y)).state := by
  obtain ⟨r, f, hexec, -, hflag, hexact⟩ := o.execute_instruction random h x y
  rw [hexec]
  exact {
    flag := (reg_flag_setFlagged x r f s).trans hflag
    whole := fun hx => by
      show o.Exact _ _ ((s.setFlagged x r f).reg x) ((s.setFlagged x r f).reg .flag)
      rw [reg_setFlagged_self hx, reg_flag_setFlagged]
      exact hexact
    others := fun q hx hf => reg_setFlagged_of_ne hx hf r f s }

theorem sound_instruction (random : Nat → Nat) (h : s.Sound) (o : Arithmetic) (x y : Reg) :
    (s.execute random (o.instruction x y)).state.Sound := by
  obtain ⟨r, f, hexec, hr, -⟩ := o.execute_instruction random h x y
  rw [hexec]
  exact h.setFlagged x hr f

/-- A machine that comes upon the word of an operation executes it, and nothing else happens but that
the program counter moves on. -/
theorem step_word (random : Nat → Nat) (tracing : Bool) (h : s.Sound) (o : Arithmetic)
    (hw : s.waiting = false) (hf : s.fetch? = some (o.word x y)) :
    (s.step random tracing).result = .ok (some (o.instruction x y)) ∧
      o.Performed x y s (s.step random tracing).state ∧
      ∃ registers, (s.step random tracing).state = { s with pc := s.pc + 2, registers } := by
  have hk : s.stackFault? (o.instruction x y) = none := by cases o <;> rfl
  have hstep : s.step random tracing = _ := step_of_fetch? hw hf (o.lookUp_word x y) hk
  have hmoved : { s with pc := s.pc + 2 }.Sound := { h with }
  have hperformed := performed_execute random hmoved o x y
  obtain ⟨r, f, hexec, -⟩ := o.execute_instruction random hmoved x y
  rw [hstep]
  refine ⟨rfl, { hperformed with }, ?_⟩
  rw [hexec]
  exact ⟨_, rfl⟩

/-- A register has its content back that was subtracted from and added to, and the flag tells whether
it was smaller than what was subtracted. -/
def Restored (x y : Reg) (s t : State) : Prop :=
  t.reg x = s.reg x ∧ t.reg .flag = if s.reg x < s.reg y then 1 else 0

/-- An addition undoes the subtraction before it, since the subtrahend is still there. -/
theorem restored_of_performed {t u : State} (h : s.Sound) (hu : u.Sound) (hxy : x ≠ y)
    (hx : x ≠ .flag) (hy : y ≠ .flag) (hsub : Arithmetic.subtract.Performed x y s t)
    (hadd : Arithmetic.add.Performed x y t u) : Restored x y s u := by
  have hdifference := hsub.whole hx
  have hsum := hadd.whole hx
  rw [hsub.others y hxy.symm hy] at hsum
  exact Arithmetic.IsDifference.add_back (h.registers x) (hu.registers x) hdifference hsum hsub.flag

/-- **The flag is right whatever the operands are**, and with the result it is exact; an operation
leaves all other registers alone, and an addition undoes a subtraction. This holds of the operation by
itself and of the step of a machine that comes upon its word. -/
theorem arithmetic_exact (random : Nat → Nat) (tracing : Bool) (h : s.Sound) (x y : Reg) :
    (∀ o : Arithmetic,
      (s.execute random (o.instruction x y)).result = .ok () ∧
      o.Performed x y s (s.execute random (o.instruction x y)).state ∧
      (s.waiting = false → s.fetch? = some (o.word x y) →
        (s.step random tracing).result = .ok (some (o.instruction x y)) ∧
        o.Performed x y s (s.step random tracing).state)) ∧
    (x ≠ y → x ≠ .flag → y ≠ .flag →
      let subtracted := (s.execute random (Arithmetic.subtract.instruction x y)).state
      let stepped := (s.step random tracing).state
      Restored x y s (subtracted.execute random (Arithmetic.add.instruction x y)).state ∧
      (s.waiting = false → s.fetch? = some (Arithmetic.subtract.word x y) →
        stepped.fetch? = some (Arithmetic.add.word x y) →
        (stepped.step random tracing).result = .ok (some (Arithmetic.add.instruction x y)) ∧
        Restored x y s (stepped.step random tracing).state)) := by
  refine ⟨fun o => ⟨?_, performed_execute random h o x y, fun hw hf => ?_⟩, fun hxy hx hy => ?_⟩
  · obtain ⟨r, f, hexec, -⟩ := o.execute_instruction random h x y
    rw [hexec]
    rfl
  · obtain ⟨hresult, hperformed, -⟩ := step_word random tracing h o hw hf
    exact ⟨hresult, hperformed⟩
  intro subtracted stepped
  constructor
  · have hsub := performed_execute random h .subtract x y
    have hsound : subtracted.Sound := sound_instruction random h .subtract x y
    have hadd := performed_execute random hsound .add x y
    have hsum := sound_instruction random hsound .add x y
    exact restored_of_performed h hsum hxy hx hy hsub hadd
  · intro hw hf hf'
    obtain ⟨-, hsub, registers, hstate⟩ := step_word random tracing h .subtract hw hf
    have hsound : stepped.Sound := h.step random tracing
    have hw' : stepped.waiting = false := by
      rw [show stepped = _ from hstate]
      exact hw
    obtain ⟨hresult, hadd, -⟩ := step_word random tracing hsound .add hw' hf'
    exact ⟨hresult, restored_of_performed h (hsound.step random tracing) hxy hx hy hsub hadd⟩

/-- A program subtracts 7 from 5 and adds it again: the register has its 5 back, and the flag says
that it was the smaller one. Where the flag register is taken from itself, the flag still wins. -/
theorem arithmetic_exact_borrow :
    let s := { ((fresh false).load [0x81, 0x25, 0x81, 0x24]).state with
      registers := Vector.ofFn fun r : Reg => 3 + 2 * r.val }
    s.Sound ∧ Restored 1 2 s ((s.step id false).state.step id false).state ∧
      ((s.step id false).state.step id false).state.reg .flag = 1 ∧
      (s.execute id (Arithmetic.subtract.instruction .flag .flag)).state.reg .flag = 0 := by
  intro s
  have hloaded : ((fresh false).load [0x81, 0x25, 0x81, 0x24]).state.Sound :=
    (sound_fresh false).load _
  have hs : s.Sound := { hloaded with
    registers := fun r => by
      show (Vector.ofFn fun r : Reg => 3 + 2 * r.val)[r] < 256
      simp only [Fin.getElem_fin, Vector.getElem_ofFn]
      omega }
  obtain ⟨-, hback⟩ := arithmetic_exact id false hs 1 2
  obtain ⟨-, hsteps⟩ := hback (by decide) (by decide) (by decide)
  obtain ⟨-, hrestored⟩ := hsteps rfl (by decide +kernel) (by decide +kernel)
  obtain ⟨-, hself, -⟩ := (arithmetic_exact id false hs .flag .flag).1 .subtract
  exact ⟨hs, hrestored, hrestored.2.trans (by decide), hself.flag.trans (by decide)⟩

end State

end Chip8Vm
