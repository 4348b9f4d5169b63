import Chip8Vm.Instruction.Table
import Mathlib.Data.Int.Bitwise

/-!
# The instruction set nibble by nibble

`Instruction.grammar` reads the operation of a sixteen-bit word off its top nibble, and below some
top nibbles off the lowest nibble or the low byte. It knows nothing of masks, and no row comes
before another. `decode_eq_grammar` says that the table decodes every word, of any size and sign, as
the grammar says for its low sixteen bits, and that the order of the table does not matter as long
as the two exact rows stand before the row for system calls, the only one that selects a
word of another row.
-/

namespace Chip8Vm

/-! ## Masks -/

/-- The masks of the table keep the top nibble and the `k` lowest bits. -/
theorem and_mask {k w : Nat} (hk : k ≤ 12) (hw : w < 65536) :
    w &&& (0xF000 + (2 ^ k - 1)) = w / 4096 * 4096 + w % 2 ^ k := by
  have hpow : 2 ^ k ≤ 2 ^ 12 := Nat.pow_le_pow_right (by decide) hk
  have hpos : 0 < 2 ^ k := Nat.two_pow_pos k
  have hhigh : (w &&& (0xF000 + (2 ^ k - 1))) / 2 ^ 12 = w / 4096 := by
    have hmask : (0xF000 + (2 ^ k - 1)) / 2 ^ 12 = 2 ^ 4 - 1 := by omega
    rw [Nat.and_div_two_pow, hmask, Nat.and_two_pow_sub_one_eq_mod]
    omega
  have hlow : (w &&& (0xF000 + (2 ^ k - 1))) % 2 ^ 12 = w % 2 ^ k := by
    have hmask : (0xF000 + (2 ^ k - 1)) % 2 ^ 12 = 2 ^ k - 1 := by omega
    rw [Nat.and_mod_two_pow, hmask, Nat.and_two_pow_sub_one_eq_mod,
      Nat.mod_mod_of_dvd _ (Nat.pow_dvd_pow 2 hk)]
  omega

/-- Masking a word with endless sign bits is masking its low sixteen bits. -/
theorem land_eq_lowWord_and (word : Int) {mask : Nat} (hmask : mask < 2 ^ 16) :
    Int.land word mask = (lowWord word &&& mask : Nat) := by
  have hhigh : ∀ k, 16 ≤ k → mask.testBit k = false := by
    intro k hk
    have hpow : 2 ^ 16 ≤ 2 ^ k := Nat.pow_le_pow_right (by decide) hk
    exact Nat.testBit_lt_two_pow (Nat.lt_of_lt_of_le hmask hpow)
  -- bit by bit: the mask has none above the sixteenth
  cases word with
  | ofNat n =>
    have hlow : lowWord (Int.ofNat n) = n % 2 ^ 16 := rfl
    show ((n &&& mask : Nat) : Int) = _
    rw [hlow, Nat.cast_inj]
    refine Nat.eq_of_testBit_eq fun k => ?_
    rw [Nat.testBit_and, Nat.testBit_and, Nat.testBit_mod_two_pow]
    rcases Nat.lt_or_ge k 16 with hk | hk
    · rw [decide_eq_true hk, Bool.true_and]
    · rw [hhigh k hk, Bool.and_false, Bool.and_false]
  | negSucc n =>
    have hlow : lowWord (Int.negSucc n) = 2 ^ 16 - (n % 2 ^ 16 + 1) := by
      rw [lowWord]
      omega
    show ((Nat.ldiff mask n : Nat) : Int) = _
    rw [hlow, Nat.cast_inj]
    refine Nat.eq_of_testBit_eq fun k => ?_
    have hmod : n % 2 ^ 16 < 2 ^ 16 := Nat.mod_lt _ (Nat.two_pow_pos 16)
    rw [Nat.testBit_ldiff, Nat.testBit_and, Nat.testBit_two_pow_sub_succ hmod,
      Nat.testBit_mod_two_pow]
    rcases Nat.lt_or_ge k 16 with hk | hk
    · rw [decide_eq_true hk, Bool.true_and, Bool.true_and, Bool.and_comm]
    · rw [hhigh k hk, Bool.and_false, Bool.false_and]

/-- Masking all but the `b` lowest bits of a word leaves a remainder. -/
theorem land_two_pow_sub_one {b : Nat} (hb : b ≤ 16) (word : Int) :
    Int.land word (2 ^ b - 1 : Nat) = word % 2 ^ b := by
  have hpow : 2 ^ b ≤ 2 ^ 16 := Nat.pow_le_pow_right (by decide) hb
  have hpos : 0 < 2 ^ b := Nat.two_pow_pos b
  have hdvd : (2 ^ b : Int) ∣ 65536 := pow_dvd_pow 2 hb
  rw [land_eq_lowWord_and word (by omega), Nat.and_two_pow_sub_one_eq_mod, lowWord,
    Int.natCast_emod, Int.toNat_of_nonneg (by omega)]
  push_cast
  exact Int.emod_emod_of_dvd word hdvd

/-- A row whose mask keeps the top nibble and the `k` lowest bits compares just these. -/
theorem Pattern.selects_iff {p : Pattern} {k w : Nat} (hk : k ≤ 12) (hw : w < 65536)
    (hmask : p.mask = 0xF000 + (2 ^ k - 1)) :
    p.selects w = true ↔ w / 4096 * 4096 + w % 2 ^ k = p.value := by
  rw [selects, beq_iff_eq, hmask, and_mask hk hw]

namespace Instruction

/-! ## The grammar -/

/-- The operations on two registers, `8xyn`, by the lowest nibble. -/
def arithmetic? : Nat → Option Op
  | 0x0 => some .copy
  | 0x1 => some .or
  | 0x2 => some .and
  | 0x3 => some .xor
  | 0x4 => some .add
  | 0x5 => some .subtract
  | 0x6 => some .shiftRight
  | 0x7 => some .subtractFrom
  | 0xE => some .shiftLeft
  | _ => none

/-- The operations on the keypad, `Exkk`, by the low byte. -/
def keypad? : Nat → Option Op
  | 0x9E => some .skipPressed
  | 0xA1 => some .skipReleased
  | _ => none

/-- The operations that join a register to something else, `Fxkk`, by the low byte. -/
def transfer? : Nat → Option Op
  | 0x07 => some .readDelay
  | 0x0A => some .awaitKey
  | 0x15 => some .setDelay
  | 0x18 => some .setSound
  | 0x1E => some .addIndex
  | 0x29 => some .pointGlyph
  | 0x33 => some .storeDecimal
  | 0x55 => some .storeRegisters
  | 0x65 => some .loadRegisters
  | _ => none

/-- The operation of a sixteen-bit word. -/
def grammar (w : Nat) : Option Op :=
  match w / 4096 with
  | 0x0 =>
    if w % 4096 = 0x0E0 then some .clearDisplay
    else if w % 4096 = 0x0EE then some .ret
    else some .system
  | 0x1 => some .jump
  | 0x2 => some .call
  | 0x3 => some .skipEqualByte
  | 0x4 => some .skipUnequalByte
  | 0x5 => if w % 16 = 0 then some .skipEqual else none
  | 0x6 => some .setByte
  | 0x7 => some .addByte
  | 0x8 => arithmetic? (w % 16)
  | 0x9 => if w % 16 = 0 then some .skipUnequal else none
  | 0xA => some .setIndex
  | 0xB => some .jumpOffset
  | 0xC => some .random
  | 0xD => some .draw
  | 0xE => keypad? (w % 256)
  | 0xF => transfer? (w % 256)
  | _ => none

/-- How many low bits the grammar looks at below a top nibble. -/
def lowBits : Nat → Nat
  | 0x0 => 12
  | 0x5 | 0x8 | 0x9 => 4
  | 0xE | 0xF => 8
  | _ => 0

theorem lowBits_le (top : Nat) : lowBits top ≤ 12 := by
  unfold lowBits
  split <;> decide

/-- Words that agree on what the grammar looks at carry the same operation. -/
theorem grammar_congr {u w : Nat} (htop : u / 4096 = w / 4096)
    (hlow : u % 2 ^ lowBits (w / 4096) = w % 2 ^ lowBits (w / 4096)) : grammar u = grammar w := by
  unfold grammar
  rw [htop]
  split
  case h_1 hzero =>
    rw [hzero] at hlow
    have hall : u % 4096 = w % 4096 := hlow
    rw [hall]
  case h_6 hnibble | h_9 hnibble | h_10 hnibble =>
    rw [hnibble] at hlow
    have hlast : u % 16 = w % 16 := hlow
    rw [hlast]
  case h_15 hbyte | h_16 hbyte =>
    rw [hbyte] at hlow
    have hlast : u % 256 = w % 256 := hlow
    rw [hlast]
  all_goals rfl

/-! ## Rows and words -/

/-- The row that selects every word with a zero top nibble. -/
def systemRow : Pattern := ⟨0xF000, 0x0000, .system⟩

/-- Every row but that for system calls keeps what the grammar looks at, and its value carries its
operation. -/
theorem row_of_mem_table : ∀ p ∈ table, p = systemRow ∨
    p.mask = 0xF000 + (2 ^ lowBits (p.value / 4096) - 1) ∧ grammar p.value = some p.op := by
  decide

/-- A row but that for system calls selects only words of its operation. -/
theorem grammar_of_selects {p : Pattern} {w : Nat} (hp : p ∈ table) (hsys : p ≠ systemRow)
    (hw : w < 65536) (h : p.selects w = true) : grammar w = some p.op := by
  obtain ⟨hmask, hvalue⟩ := (row_of_mem_table p hp).resolve_left hsys
  have hbits := lowBits_le (p.value / 4096)
  have hsel := (Pattern.selects_iff hbits hw hmask).1 h
  have hlow : w % 2 ^ lowBits (p.value / 4096) < 4096 :=
    Nat.lt_of_lt_of_le (Nat.mod_lt w (Nat.two_pow_pos _)) (Nat.pow_le_pow_right (by decide) hbits)
  rw [← hvalue]
  refine grammar_congr (by omega) ?_
  -- the value differs from the word by a multiple of what the grammar looks at
  have hrest : p.value % 4096 = w % 2 ^ lowBits (p.value / 4096) := by omega
  have hdvd : 2 ^ lowBits (p.value / 4096) ∣ 4096 := Nat.pow_dvd_pow 2 hbits
  rw [← Nat.mod_mod_of_dvd p.value hdvd, hrest, Nat.mod_mod]

/-- What the grammar looks at in an accepted word makes a row of the table. -/
theorem row_of_grammar {w : Nat} {op : Op} (htop : w / 4096 ≠ 0) (h : grammar w = some op) :
    ⟨0xF000 + (2 ^ lowBits (w / 4096) - 1),
      w / 4096 * 4096 + w % 2 ^ lowBits (w / 4096), op⟩ ∈ table := by
  unfold grammar at h
  split at h
  case h_1 hzero => exact absurd hzero htop
  case h_6 | h_10 =>
    split at h
    · cases h
      simp only [lowBits, Nat.reducePow, *]
      decide
    · cases h
  case h_9 =>
    unfold arithmetic? at h
    split at h <;> cases h <;> simp only [lowBits, Nat.reducePow, *] <;> decide
  case h_15 =>
    unfold keypad? at h
    split at h <;> cases h <;> simp only [lowBits, Nat.reducePow, *] <;> decide
  case h_16 =>
    unfold transfer? at h
    split at h <;> cases h <;> simp only [lowBits, Nat.reducePow, *] <;> decide
  case h_17 => cases h
  -- the other top nibbles decide alone
  all_goals
    cases h
    simp only [lowBits, Nat.pow_zero, Nat.mod_one, *]
    decide

theorem selects_systemRow {w : Nat} (hw : w < 65536) :
    systemRow.selects w = true ↔ w / 4096 = 0 := by
  have hselects := Pattern.selects_iff (p := systemRow) (k := 0) (by decide) hw rfl
  rw [hselects, Nat.pow_zero, Nat.mod_one, show systemRow.value = 0 from rfl]
  omega

/-- Some row selects every word that the grammar accepts. -/
theorem selected_of_grammar {w : Nat} {op : Op} (hw : w < 65536) (h : grammar w = some op) :
    ∃ p ∈ table, p.selects w = true := by
  by_cases htop : w / 4096 = 0
  · exact ⟨systemRow, by decide, (selects_systemRow hw).2 htop⟩
  · exact ⟨_, row_of_grammar htop h, (Pattern.selects_iff (lowBits_le _) hw rfl).2 rfl⟩

/-- A word with a zero top nibble is a system call unless an exact row selects it. -/
theorem grammar_eq_system {w : Nat} (htop : w / 4096 = 0)
    (h : ∀ p ∈ table, p.op = .clearDisplay ∨ p.op = .ret → p.selects w = false) :
    grammar w = some .system := by
  have hclear : w ≠ 0x00E0 := by
    rintro rfl
    exact absurd (h ⟨0xFFFF, 0x00E0, .clearDisplay⟩ (by decide) (.inl rfl)) (by decide)
  have hret : w ≠ 0x00EE := by
    rintro rfl
    exact absurd (h ⟨0xFFFF, 0x00EE, .ret⟩ (by decide) (.inr rfl)) (by decide)
  unfold grammar
  rw [htop]
  show (if _ then _ else if _ then _ else _) = _
  rw [if_neg (by omega), if_neg (by omega)]

/-! ## The order of the table -/

/-- The rows of the table in another order that keeps the two exact rows before the row for
system calls. -/
structure Arranged (rows : List Pattern) : Prop where
  perm : rows.Perm table
  exactFirst : rows.Pairwise fun p q => p.op = .system → q.op ≠ .clearDisplay ∧ q.op ≠ .ret

theorem table_arranged : Arranged table := ⟨.refl _, by decide⟩

/-- An exact row stands before the row for system calls. -/
theorem Arranged.mem_before {before after : List Pattern}
    (h : Arranged (before ++ systemRow :: after)) {q : Pattern} (hq : q ∈ table)
    (hop : q.op = .clearDisplay ∨ q.op = .ret) : q ∈ before := by
  have hexact : ¬(q.op ≠ .clearDisplay ∧ q.op ≠ .ret) := fun hne => hop.elim hne.1 hne.2
  rcases List.mem_append.1 (h.perm.mem_iff.2 hq) with hbefore | hlater
  · exact hbefore
  · rcases List.mem_cons.1 hlater with rfl | hafter
    · exact absurd ⟨nofun, nofun⟩ hexact
    · have hrel := (List.pairwise_append.1 h.exactFirst).2.1
      exact absurd (List.rel_of_pairwise_cons hrel hafter rfl) hexact

/-- In the order of the table and in any other that keeps the exact rows first, the row found for
a word carries the operation of the grammar. -/
theorem find?_of_arranged {rows : List Pattern} (h : Arranged rows) {w : Nat} (hw : w < 65536) :
    (rows.find? (·.selects w)).map Pattern.op = grammar w := by
  cases hfind : rows.find? (·.selects w) with
  | none =>
    have hnone := List.find?_eq_none.1 hfind
    symm
    refine Option.eq_none_iff_forall_ne_some.2 fun op hop => ?_
    obtain ⟨p, hp, hsel⟩ := selected_of_grammar hw hop
    exact hnone p (h.perm.mem_iff.2 hp) hsel
  | some p =>
    obtain ⟨hsel, before, after, rfl, hbefore⟩ := List.find?_eq_some_iff_append.1 hfind
    have hp : p ∈ table := h.perm.mem_iff.1 List.mem_append_cons_self
    by_cases hsys : p = systemRow
    · subst hsys
      symm
      refine grammar_eq_system ((selects_systemRow hw).1 hsel) fun q hq hop => ?_
      -- the exact rows were looked at before
      simpa using hbefore q (h.mem_before hq hop)
    · exact (grammar_of_selects hp hsys hw hsel).symm

/-- Decoding by the rows in such an order is decoding by the grammar. -/
theorem decodeBy_of_arranged {rows : List Pattern} (h : Arranged rows) (word pc : Int) :
    decodeBy rows word pc = match grammar (lowWord word) with
      | some op => .ok ⟨op, word⟩
      | none => .error ⟨.unknownOpcode, some word, pc, ""⟩ := by
  rw [← find?_of_arranged h (lowWord_lt word), decodeBy, lookUp]
  cases rows.find? (·.selects (lowWord word)) <;> rfl

/-- A sixteen-bit word that the grammar accepts is an instruction. -/
theorem lookUp_of_grammar {w : Nat} {op : Op} (hw : w < 65536) (h : grammar w = some op) :
    lookUp table w = some ⟨op, w⟩ := by
  have hop := find?_of_arranged table_arranged hw
  rw [h] at hop
  obtain ⟨p, hp, rfl⟩ := Option.map_eq_some_iff.1 hop
  rw [lookUp, lowWord_natCast hw, hp, Option.map_some]

/-- The register and byte operands of a sixteen-bit word. -/
theorem operands_natCast {w : Nat} (hw : w < 65536) (op : Op) :
    (x ⟨op, w⟩).val = w / 256 % 16 ∧ (y ⟨op, w⟩).val = w / 16 % 16 ∧ kk ⟨op, w⟩ = w % 256 := by
  simp only [x, y, kk, lowNibble, lowWord_natCast hw, and_self]

/-- **Every word is decoded as the grammar says for its low sixteen bits.** The rows compare all
bits of the word they are given; the operand fields are those of the low sixteen bits, which are what
shifting and masking the whole word leaves, and the word stays as it was given; and the outcome does
not depend on the order of the table, as long as the exact rows come before the row for system
calls. -/
theorem decode_eq_grammar (word pc : Int) :
    (∀ p ∈ table, p.selects (lowWord word) = true ↔ Int.land word p.mask = p.value) ∧
      (decode word pc = match grammar (lowWord word) with
        | some op => .ok ⟨op, word⟩
        | none => .error ⟨.unknownOpcode, some word, pc, ""⟩) ∧
      (∀ i, decode word pc = .ok i → i.word = word ∧
        (i.x.val : Int) = word % 65536 / 256 % 16 ∧ (i.y.val : Int) = word % 65536 / 16 % 16 ∧
        (i.n : Int) = word % 65536 % 16 ∧ (i.kk : Int) = word % 65536 % 256 ∧
        (i.nnn : Int) = word % 65536 % 4096 ∧
        (i.x.val : Int) = Int.land (word >>> (8 : Nat)) 0xF ∧
        (i.y.val : Int) = Int.land (word >>> (4 : Nat)) 0xF ∧
        (i.n : Int) = Int.land word 0xF ∧ (i.kk : Int) = Int.land word 0xFF ∧
        (i.nnn : Int) = Int.land word 0xFFF) ∧
      ∀ rows, Arranged rows → decodeBy rows word pc = decode word pc := by
  have hdecode := decodeBy_of_arranged table_arranged word pc
  refine ⟨fun p hp => ?_, hdecode, fun i hi => ?_, fun rows h => ?_⟩
  · have hmask : ∀ p ∈ table, p.mask < 2 ^ 16 := by decide
    rw [land_eq_lowWord_and word (hmask p hp), Nat.cast_inj, Pattern.selects, beq_iff_eq]
  · have hword : i.word = word := by
      rw [decode, hdecode] at hi
      split at hi
      next => cases hi; rfl
      next => cases hi
    have nibble (v : Int) : Int.land v 0xF = v % 16 := land_two_pow_sub_one (b := 4) (by decide) v
    have byte : Int.land word 0xFF = word % 256 := land_two_pow_sub_one (b := 8) (by decide) word
    have address : Int.land word 0xFFF = word % 4096 :=
      land_two_pow_sub_one (b := 12) (by decide) word
    rw [nibble, nibble, nibble, byte, address, Int.shiftRight_eq_div_pow, Int.shiftRight_eq_div_pow]
    refine ⟨hword, ?_⟩
    simp only [x, y, n, kk, nnn, lowNibble, hword, lowWord]
    omega
  · rw [decodeBy_of_arranged h, decode, hdecode]

/-- A negative word waits for a key, also by a table that starts with the row for jumps. -/
theorem decode_eq_grammar_negative :
    Arranged (table.drop 3 ++ table.take 3) ∧
      decode (-0x0AF6) 0x200 = .ok ⟨.awaitKey, -0x0AF6⟩ ∧
      (x ⟨.awaitKey, -0x0AF6⟩ : Int) = -0x0AF6 % 65536 / 256 % 16 ∧
      decodeBy (table.drop 3 ++ table.take 3) (-0x0AF6) 0x200 = decode (-0x0AF6) 0x200 := by
  have harranged : Arranged (table.drop 3 ++ table.take 3) := ⟨by decide, by decide⟩
  have hdecode : decode (-0x0AF6) 0x200 = .ok ⟨.awaitKey, -0x0AF6⟩ := by decide
  obtain ⟨-, -, hfields, horder⟩ := decode_eq_grammar (-0x0AF6) 0x200
  obtain ⟨-, hx, -⟩ := hfields _ hdecode
  exact ⟨harranged, hdecode, hx, horder _ harranged⟩

end Instruction

end Chip8Vm
