import Chip8Vm.Effect
import Chip8Vm.Instruction.Mnemonic
import Chip8Vm.Proofs.Grammar
import Chip8Vm.Proofs.Reading

/-!
# Disassembly is faithful

The mnemonic of an instruction is a name with slots behind it, `Op.slots`, and a slot is a field of
the word or a fixed text. `mnemonic_eq` puts the words of a mnemonic together, and since no word
contains a space the mnemonic can be taken apart again. The name and the first characters of the
operands then tell the operation, and the numerals tell the fields: `mnemonic_eq_iff_slots`.

What a row of the table does not compare its operation shows, the second register of a shift apart
(`row_covers`), so that the row and the slots together make up the low sixteen bits. On the other
side an instruction reads no field that is not shown (`State.state_execute_congr`).
`mnemonic_eq_iff` is the payoff: which words look the same, and that these do the same.
-/

namespace Chip8Vm

/-! ## Words behind a mask -/

/-- A mask keeps the same of two words if they agree on its bits. -/
theorem and_eq_and_iff {u v mask : Nat} :
    u &&& mask = v &&& mask ↔ ∀ k, mask.testBit k = true → u.testBit k = v.testBit k := by
  refine ⟨fun h k hk => ?_, fun h => Nat.eq_of_testBit_eq fun k => ?_⟩
  · have hbit := congrArg (·.testBit k) h
    simpa [hk] using hbit
  · rw [Nat.testBit_and, Nat.testBit_and]
    cases hk : mask.testBit k with
    | false => rw [Bool.and_false, Bool.and_false]
    | true => rw [h k hk]

theorem and_or_eq_and_or_iff {u v a b : Nat} :
    u &&& (a ||| b) = v &&& (a ||| b) ↔ u &&& a = v &&& a ∧ u &&& b = v &&& b := by
  simp only [and_eq_and_iff, Nat.testBit_or, Bool.or_eq_true, or_imp, forall_and]

/-! ## Slots -/

/-- What stands behind the name of an operation: a field of the word or a text of its own. -/
inductive Slot
  | x
  | y
  | n
  | kk
  | nnn
  | fixed (text : String)
deriving DecidableEq

namespace Slot

/-- The number of bits below the field. -/
def start : Slot → Nat
  | x => 8
  | y => 4
  | n | kk | nnn | fixed _ => 0

/-- The number of bits of the field. -/
def width : Slot → Nat
  | x | y | n => 4
  | kk => 8
  | nnn => 12
  | fixed _ => 0

/-- The field of a sixteen-bit word. -/
def value (slot : Slot) (w : Nat) : Nat := w / 2 ^ slot.start % 2 ^ slot.width

@[simp] theorem value_x (i : Instruction) : Slot.x.value (lowWord i.word) = i.x.val := rfl

@[simp] theorem value_y (i : Instruction) : Slot.y.value (lowWord i.word) = i.y.val := rfl

@[simp] theorem value_n (i : Instruction) : Slot.n.value (lowWord i.word) = i.n := by
  rw [value, start, Nat.pow_zero, Nat.div_one]
  rfl

@[simp] theorem value_kk (i : Instruction) : Slot.kk.value (lowWord i.word) = i.kk := by
  rw [value, start, Nat.pow_zero, Nat.div_one]
  rfl

@[simp] theorem value_nnn (i : Instruction) : Slot.nnn.value (lowWord i.word) = i.nnn := by
  rw [value, start, Nat.pow_zero, Nat.div_one]
  rfl

/-- The bits of the field, in their places. -/
def bits (slot : Slot) : Nat := (2 ^ slot.width - 1) <<< slot.start

/-- The text for a field of that value. -/
def text (v : Nat) : Slot → String
  | x | y => "V" ++ Numeral.hex 1 v
  | n => Numeral.decimal v
  | kk => "0x" ++ Numeral.hex 2 v
  | nnn => "0x" ++ Numeral.hex 3 v
  | fixed text => text

theorem and_bits (slot : Slot) (w : Nat) : w &&& slot.bits = slot.value w <<< slot.start := by
  rw [bits, value, ← Nat.shiftRight_eq_div_pow, ← Nat.and_two_pow_sub_one_eq_mod]
  refine Nat.eq_of_testBit_eq fun k => ?_
  rw [Nat.testBit_and, Nat.testBit_shiftLeft, Nat.testBit_shiftLeft, Nat.testBit_and,
    Nat.testBit_shiftRight]
  by_cases hk : slot.start ≤ k
  · simp [hk]
  · simp [hk]

/-- Words have the same field if they agree on its bits. -/
theorem and_bits_eq_iff {slot : Slot} {u v : Nat} :
    u &&& slot.bits = v &&& slot.bits ↔ slot.value u = slot.value v := by
  rw [and_bits, and_bits]
  refine ⟨fun h => ?_, fun h => by rw [h]⟩
  have hback := congrArg (· >>> slot.start) h
  simpa only [Nat.shiftLeft_shiftRight] using hback

/-- Different values of a field have different texts. -/
theorem text_inj {slot : Slot} {u v : Nat} :
    slot.text (slot.value u) = slot.text (slot.value v) ↔ slot.value u = slot.value v := by
  refine ⟨fun h => ?_, fun h => by rw [h]⟩
  cases slot with
  | fixed => rw [value, value, width, Nat.pow_zero, Nat.mod_one, Nat.mod_one]
  | n => exact Int.ofNat_inj.1 (Numeral.decimal_inj h)
  | x | y | kk | nnn => exact Int.ofNat_inj.1 (Numeral.hex_inj ((String.append_right_inj _).1 h))

/-- What the first character of a text tells; all digits tell the same. -/
def leading (t : String) : Option Char :=
  t.toList.head?.map fun c => if c.isDigit then '0' else c

/-- What the first character of a slot's text tells, whatever the field. -/
def initial : Slot → Option Char
  | x | y => some 'V'
  | n | kk | nnn => some '0'
  | fixed text => leading text

/-- The text of a slot tells what the slot is, whatever the field. -/
theorem leading_text (slot : Slot) (v : Nat) : leading (slot.text v) = slot.initial := by
  cases slot with
  | fixed => rfl
  | x | y | kk | nnn => simp [text, initial, leading]
  | n =>
    have hdigit : ∀ d : Fin 10, (Numeral.digitChar d.val).isDigit = true := by decide
    cases hchars : (Numeral.decimal v).toList with
    | nil => exact absurd hchars (Numeral.toList_signed_ne_nil (by decide) 0 v)
    | cons c cs =>
      have hc : c ∈ (Numeral.decimal v).toList := hchars ▸ List.mem_cons_self ..
      obtain ⟨d, hd, rfl⟩ := Numeral.mem_signed (by decide) hc
      simp [text, initial, leading, hchars, hdigit ⟨d, hd⟩]

/-- No numeral has a space in it. -/
theorem space_not_mem_text {slot : Slot} (h : ' ' ∉ (slot.text 0).toList) (v : Nat) :
    ' ' ∉ (slot.text v).toList := by
  have hdigits : ∀ d : Fin 16, Numeral.digitChar d.val ≠ ' ' := by decide
  have hnumeral {b : Nat} (hb : 2 ≤ b) (hb' : b ≤ 16) (k : Nat) :
      ' ' ∉ (Numeral.signed b k v).toList := fun hspace => by
    obtain ⟨d, hd, hchar⟩ := Numeral.mem_signed hb hspace
    exact hdigits ⟨d, Nat.lt_of_lt_of_le hd hb'⟩ hchar
  have hhex (k : Nat) : ' ' ∉ (Numeral.hex k v).toList := hnumeral (by decide) (by decide) k
  cases slot with
  | fixed => exact h
  | x | y | kk | nnn => simp [text, hhex]
  | n => exact hnumeral (by decide) (by decide) 0

end Slot

/-! ## The words of a mnemonic -/

/-- The name of an operation; operations that differ in their operands only share it. -/
def Op.name : Op → String
  | .clearDisplay => "CLS"
  | .ret => "RET"
  | .system => "SYS"
  | .jump | .jumpOffset => "JP"
  | .call => "CALL"
  | .skipEqualByte | .skipEqual => "SE"
  | .skipUnequalByte | .skipUnequal => "SNE"
  | .addByte | .add | .addIndex => "ADD"
  | .or => "OR"
  | .and => "AND"
  | .xor => "XOR"
  | .subtract => "SUB"
  | .shiftRight => "SHR"
  | .subtractFrom => "SUBN"
  | .shiftLeft => "SHL"
  | .random => "RND"
  | .draw => "DRW"
  | .skipPressed => "SKP"
  | .skipReleased => "SKNP"
  | _ => "LD"

/-- The slots behind the name. -/
def Op.slots : Op → List Slot
  | .clearDisplay | .ret => []
  | .system | .jump | .call => [.nnn]
  | .setIndex => [.fixed "I", .nnn]
  | .jumpOffset => [.fixed "V0", .nnn]
  | .skipEqualByte | .skipUnequalByte | .setByte | .addByte | .random => [.x, .kk]
  | .skipEqual | .skipUnequal | .copy | .or | .and | .xor | .add | .subtract | .subtractFrom =>
    [.x, .y]
  | .draw => [.x, .y, .n]
  | .shiftRight | .shiftLeft | .skipPressed | .skipReleased => [.x]
  | .readDelay => [.x, .fixed "DT"]
  | .awaitKey => [.x, .fixed "K"]
  | .setDelay => [.fixed "DT", .x]
  | .setSound => [.fixed "ST", .x]
  | .addIndex => [.fixed "I", .x]
  | .pointGlyph => [.fixed "F", .x]
  | .storeDecimal => [.fixed "B", .x]
  | .storeRegisters => [.fixed "[I]", .x]
  | .loadRegisters => [.x, .fixed "[I]"]

/-- Puts a comma behind each text but the last. -/
def punctuate : List String → List String
  | [] => []
  | [t] => [t]
  | t :: u :: ts => (t ++ ",") :: punctuate (u :: ts)

theorem punctuate_ne_nil (t : String) (ts : List String) : punctuate (t :: ts) ≠ [] := by
  cases ts <;> exact List.cons_ne_nil _ _

theorem punctuate_inj {ts us : List String} (h : punctuate ts = punctuate us) : ts = us := by
  fun_induction punctuate ts generalizing us with
  | case1 =>
    cases us with
    | nil => rfl
    | cons u us => exact absurd h.symm (punctuate_ne_nil u us)
  | case2 t =>
    match us with
    | [] => cases h
    | [u] => exact h
    | u :: u' :: us => exact absurd (List.cons.inj h).2.symm (punctuate_ne_nil u' us)
  | case3 t t' ts ih =>
    match us with
    | [] => cases h
    | [u] => exact absurd (List.cons.inj h).2 (punctuate_ne_nil t' ts)
    | u :: u' :: us =>
      obtain ⟨hfirst, hrest⟩ := List.cons.inj h
      rw [(String.append_left_inj _).1 hfirst, ih hrest]

theorem space_not_mem_punctuate {ts : List String} (h : ∀ t ∈ ts, ' ' ∉ t.toList) :
    ∀ t ∈ punctuate ts, ' ' ∉ t.toList := by
  fun_induction punctuate ts with
  | case1 | case2 => exact h
  | case3 t u ts ih =>
    rw [List.forall_mem_cons] at h ⊢
    exact ⟨by simpa using h.1, ih h.2⟩

namespace Instruction

/-- The texts of the operands: each slot with its field. -/
def operands (i : Instruction) : List String :=
  i.op.slots.map fun slot => slot.text (slot.value (lowWord i.word))

/-- The words of a mnemonic. -/
def words (i : Instruction) : List String := i.op.name :: punctuate i.operands

/-- A mnemonic is its words with spaces between them. -/
theorem mnemonic_eq (i : Instruction) : i.mnemonic = " ".intercalate i.words := by
  unfold mnemonic words operands
  rw [← String.toList_inj]
  cases i.op <;>
    simp [Op.name, Op.slots, Slot.text, punctuate, addressText, oneRegister, registerByte,
      twoRegisters, Reg.name]

/-- Every operation has a row. -/
theorem exists_row (op : Op) : ∃ p ∈ table, p.op = op := by
  cases op <;> decide

theorem space_not_mem_slots : ∀ p ∈ table, ∀ slot ∈ p.op.slots, ' ' ∉ (slot.text 0).toList := by
  decide +kernel

theorem space_not_mem_name : ∀ p ∈ table, ' ' ∉ p.op.name.toList := by
  decide

/-- Rows with one name differ in what the first characters of their operands tell. -/
theorem row_determined : ∀ p ∈ table, ∀ q ∈ table, p.op.name = q.op.name →
    p.op.slots.map Slot.initial = q.op.slots.map Slot.initial → p = q := by
  decide +kernel

theorem leading_operands (i : Instruction) :
    i.operands.map Slot.leading = i.op.slots.map Slot.initial := by
  rw [operands, List.map_map]
  exact List.map_congr_left fun slot _ => slot.leading_text _

theorem space_not_mem_words (i : Instruction) : ∀ t ∈ i.words, ' ' ∉ t.toList := by
  obtain ⟨p, hp, hop⟩ := exists_row i.op
  rw [words, List.forall_mem_cons]
  refine ⟨hop ▸ space_not_mem_name p hp, space_not_mem_punctuate fun t ht => ?_⟩
  obtain ⟨slot, hslot, rfl⟩ := List.mem_map.1 ht
  exact Slot.space_not_mem_text (space_not_mem_slots p hp slot (hop ▸ hslot)) _

/-- A mnemonic can be taken apart. -/
theorem mnemonic_eq_iff_words {i j : Instruction} :
    i.mnemonic = j.mnemonic ↔ i.op.name = j.op.name ∧ i.operands = j.operands := by
  rw [mnemonic_eq, mnemonic_eq]
  refine ⟨fun h => ?_, fun h => by rw [words, words, h.1, h.2]⟩
  have hwords : i.words = j.words :=
    eq_of_intercalate_eq rfl i.space_not_mem_words j.space_not_mem_words
      (List.cons_ne_nil _ _) (List.cons_ne_nil _ _) h
  obtain ⟨hname, hoperands⟩ := List.cons.inj hwords
  exact ⟨hname, punctuate_inj hoperands⟩

/-- The name and the first characters of the operands tell the operation. -/
theorem op_eq_of_operands_eq {i j : Instruction} (hname : i.op.name = j.op.name)
    (hoperands : i.operands = j.operands) : i.op = j.op := by
  obtain ⟨p, hp, hpop⟩ := exists_row i.op
  obtain ⟨q, hq, hqop⟩ := exists_row j.op
  have hinitial : i.op.slots.map Slot.initial = j.op.slots.map Slot.initial := by
    rw [← leading_operands, hoperands, leading_operands]
  rw [← hpop, ← hqop] at hname hinitial ⊢
  rw [row_determined p hp q hq hname hinitial]

/-- The operands of one operation tell the fields that it shows. -/
theorem operands_eq_iff {i j : Instruction} (hop : i.op = j.op) :
    i.operands = j.operands ↔
      ∀ slot ∈ i.op.slots, slot.value (lowWord i.word) = slot.value (lowWord j.word) := by
  rw [operands, operands, ← hop, List.map_inj_left]
  exact forall₂_congr fun slot _ => Slot.text_inj

/-- Instructions have the same mnemonic if they are of one operation and agree on its slots. -/
theorem mnemonic_eq_iff_slots {i j : Instruction} :
    i.mnemonic = j.mnemonic ↔ i.op = j.op ∧
      ∀ slot ∈ i.op.slots, slot.value (lowWord i.word) = slot.value (lowWord j.word) := by
  rw [mnemonic_eq_iff_words]
  constructor
  · rintro ⟨hname, hoperands⟩
    have hop := op_eq_of_operands_eq hname hoperands
    exact ⟨hop, (operands_eq_iff hop).1 hoperands⟩
  · rintro ⟨hop, hvalues⟩
    exact ⟨by rw [hop], (operands_eq_iff hop).2 hvalues⟩

/-! ## What a mnemonic shows -/

/-- The bits of all slots of an operation. -/
def shown (op : Op) : Nat := (op.slots.map Slot.bits).foldr (· ||| ·) 0

/-- Words agree on the slots of an operation if they agree on all the bits shown. -/
theorem and_shown_eq_iff {op : Op} {u v : Nat} :
    u &&& shown op = v &&& shown op ↔ ∀ slot ∈ op.slots, slot.value u = slot.value v := by
  unfold shown
  induction op.slots with
  | nil => simp
  | cons slot slots ih =>
    rw [List.map_cons, List.foldr_cons, and_or_eq_and_or_iff, ih, Slot.and_bits_eq_iff,
      List.forall_mem_cons]

/-- What a row does not compare the mnemonic shows, except that a shift hides `y`. -/
theorem row_covers : ∀ p ∈ table, p.op ≠ .shiftRight → p.op ≠ .shiftLeft →
    p.mask ||| shown p.op = 2 ^ 16 - 1 := by
  decide

theorem lookUp_of_decode {word pc : Int} {i : Instruction} (h : decode word pc = .ok i) :
    lookUp table word = some i := by
  unfold decode decodeBy at h
  split at h
  next hlook => exact Except.ok.inj h ▸ hlook
  next => cases h

/-- The row by which a word was decoded. -/
theorem row_of_decode {word pc : Int} {i : Instruction} (h : decode word pc = .ok i) :
    i.word = word ∧ ∃ p ∈ table, p.op = i.op ∧ lowWord word &&& p.mask = p.value := by
  obtain ⟨p, hfind, rfl⟩ := Option.map_eq_some_iff.1 (lookUp_of_decode h)
  have hselects := List.find?_some hfind
  exact ⟨rfl, p, List.mem_of_find?_eq_some hfind, rfl, eq_of_beq hselects⟩

/-- Only a shift has its mnemonic in common with another word. -/
theorem lowWord_eq_of_mnemonic_eq {u v pc pc' : Int} {i j : Instruction}
    (hi : decode u pc = .ok i) (hj : decode v pc' = .ok j) (h : i.mnemonic = j.mnemonic)
    (hright : i.op ≠ .shiftRight) (hleft : i.op ≠ .shiftLeft) : lowWord u = lowWord v := by
  obtain ⟨hu, p, hp, hpop, hpselects⟩ := row_of_decode hi
  obtain ⟨hv, q, hq, hqop, hqselects⟩ := row_of_decode hj
  obtain ⟨hop, hslots⟩ := mnemonic_eq_iff_slots.1 h
  have hpq : p.op = q.op := by rw [hpop, hqop, hop]
  obtain rfl : p = q := row_determined p hp q hq (by rw [hpq]) (by rw [hpq])
  rw [← hpop] at hright hleft hslots
  rw [hu, hv, ← and_shown_eq_iff] at hslots
  -- the words agree on what the row compares and on what the mnemonic shows
  have hagree : lowWord u &&& (p.mask ||| shown p.op) = lowWord v &&& (p.mask ||| shown p.op) :=
    and_or_eq_and_or_iff.2 ⟨hpselects.trans hqselects.symm, hslots⟩
  rwa [row_covers p hp hright hleft, Nat.and_two_pow_sub_one_of_lt_two_pow (lowWord_lt u),
    Nat.and_two_pow_sub_one_of_lt_two_pow (lowWord_lt v)] at hagree

theorem mnemonic_eq_of_lowWord_eq {u v pc pc' : Int} {i j : Instruction}
    (hi : decode u pc = .ok i) (hj : decode v pc' = .ok j) (h : lowWord u = lowWord v) :
    i.mnemonic = j.mnemonic := by
  have hops : (lookUp table u).map op = (lookUp table v).map op := lookUp_congr h
  rw [lookUp_of_decode hi, lookUp_of_decode hj] at hops
  refine mnemonic_eq_iff_slots.2 ⟨Option.some.inj hops, fun slot _ => ?_⟩
  rw [(row_of_decode hi).1, (row_of_decode hj).1, h]

end Instruction

/-! ## What an instruction reads -/

/-- Instructions of one operation that agree on its slots do the same to a state. -/
theorem State.state_execute_congr (random : Nat → Nat) {i j : Instruction} (s : State)
    (hop : i.op = j.op)
    (h : ∀ slot ∈ i.op.slots, slot.value (lowWord i.word) = slot.value (lowWord j.word)) :
    (s.execute random i).state = (s.execute random j).state := by
  unfold State.execute
  rw [← hop]
  -- one operation at a time, `h` speaks of the very fields that its effect is given
  cases hcase : i.op <;> simp [hcase, Op.slots, Fin.val_inj] at h <;> simp [h]
  case ret => cases s.return? <;> rfl
  case call => cases s.call? j.nnn <;> rfl

namespace Instruction

/-! ## Looking the same -/

/-- A shift shows its first register and nothing else. -/
theorem mnemonic_eq_iff_of_shift {i j : Instruction}
    (hop : i.op = .shiftRight ∨ i.op = .shiftLeft) :
    i.mnemonic = j.mnemonic ↔ i.op = j.op ∧ i.x = j.x := by
  have hslots : i.op.slots = [.x] := by rcases hop with hop | hop <;> rw [hop] <;> rfl
  rw [mnemonic_eq_iff_slots, hslots, List.forall_mem_singleton, Slot.value_x, Slot.value_x,
    Fin.val_inj]

/-- A shift never fails, so that no fault tells its word. -/
theorem execute_eq_of_shift (random : Nat → Nat) (s : State) {i j : Instruction}
    (hshift : i.op = .shiftRight ∨ i.op = .shiftLeft) (hop : i.op = j.op) (hx : i.x = j.x) :
    s.execute random i = s.execute random j := by
  unfold State.execute
  rcases hshift with hi | hi <;> simp only [← hop, hi, hx]

/-- **Different words look different.** Two words have the same mnemonic only if they agree in their
low sixteen bits, or if they are the same shift of the same register. What looks the same does the
same to every state, since an operation reads no operand that its mnemonic does not show; of
sixteen-bit words a failure and its report are the same, too. -/
theorem mnemonic_eq_iff {u v pc pc' : Int} {i j : Instruction} (hi : decode u pc = .ok i)
    (hj : decode v pc' = .ok j) :
    (i.mnemonic = j.mnemonic ↔ u % 65536 = v % 65536 ∨
      i.op = j.op ∧ (i.op = .shiftRight ∨ i.op = .shiftLeft) ∧ i.x = j.x) ∧
    (i.mnemonic = j.mnemonic → ∀ (random : Nat → Nat) (s : State),
      (s.execute random i).state = (s.execute random j).state ∧
      (0 ≤ u ∧ u < 65536 → 0 ≤ v ∧ v < 65536 → s.execute random i = s.execute random j)) := by
  have hlow (h : i.mnemonic = j.mnemonic) (hop : ¬(i.op = .shiftRight ∨ i.op = .shiftLeft)) :
      u % 65536 = v % 65536 :=
    lowWord_eq_iff.1 (lowWord_eq_of_mnemonic_eq hi hj h (mt .inl hop) (mt .inr hop))
  refine ⟨⟨fun h => ?_, ?_⟩, fun h random s => ⟨?_, fun hu hv => ?_⟩⟩
  · by_cases hshift : i.op = .shiftRight ∨ i.op = .shiftLeft
    · obtain ⟨hop, hx⟩ := (mnemonic_eq_iff_of_shift hshift).1 h
      exact .inr ⟨hop, hshift, hx⟩
    · exact .inl (hlow h hshift)
  · rintro (hlow | ⟨hop, hshift, hx⟩)
    · exact mnemonic_eq_of_lowWord_eq hi hj (lowWord_eq_iff.2 hlow)
    · exact (mnemonic_eq_iff_of_shift hshift).2 ⟨hop, hx⟩
  · obtain ⟨hop, hslots⟩ := mnemonic_eq_iff_slots.1 h
    exact s.state_execute_congr random hop hslots
  · by_cases hshift : i.op = .shiftRight ∨ i.op = .shiftLeft
    · obtain ⟨hop, hx⟩ := (mnemonic_eq_iff_of_shift hshift).1 h
      exact execute_eq_of_shift random s hshift hop hx
    · have hmod := hlow h hshift
      obtain rfl : u = v := by omega
      have hij : some i = some j := by rw [← lookUp_of_decode hi, ← lookUp_of_decode hj]
      rw [Option.some.inj hij]

/-- The right shift of `V1` has one mnemonic, whatever its second register. -/
theorem mnemonic_eq_iff_hidden_register :
    decode 0x8126 0x200 = .ok ⟨.shiftRight, 0x8126⟩ ∧
      decode 0x8136 0x200 = .ok ⟨.shiftRight, 0x8136⟩ ∧
      mnemonic ⟨.shiftRight, 0x8126⟩ = mnemonic ⟨.shiftRight, 0x8136⟩ ∧
      ∀ (random : Nat → Nat) (s : State),
        s.execute random ⟨.shiftRight, 0x8126⟩ = s.execute random ⟨.shiftRight, 0x8136⟩ := by
  have hu : decode 0x8126 0x200 = .ok ⟨.shiftRight, 0x8126⟩ := by decide
  have hv : decode 0x8136 0x200 = .ok ⟨.shiftRight, 0x8136⟩ := by decide
  obtain ⟨hsame, hdo⟩ := mnemonic_eq_iff hu hv
  have htext : mnemonic ⟨.shiftRight, 0x8126⟩ = mnemonic ⟨.shiftRight, 0x8136⟩ :=
    hsame.2 (.inr ⟨rfl, .inl rfl, by decide⟩)
  exact ⟨hu, hv, htext, fun random s => (hdo htext random s).2 (by decide) (by decide)⟩

end Instruction

end Chip8Vm
