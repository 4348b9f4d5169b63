import Chip8Vm.Text.Numeral

/-!
# Texts read back

Different numbers have different numerals (`Numeral.hex_inj`, `Numeral.decimal_inj`), since a numeral
can be read back with its sign and whatever its width (`Numeral.reading_signed`). Texts that are put
together with a separator between them are found again by splitting at the separator,
`eq_of_intercalate_eq`.

Where a numeral has a least width only, nothing but the text behind it tells where it ends. A
`FormField` is a numeral behind a label, and the label begins with a character that is in no numeral.
So the fields of a `Form` can stand one behind the other and are still read back, `Form.read?_fill`, up
to a text that no numeral goes on into.
-/

namespace Chip8Vm

variable {b : Nat}

namespace Numeral

/-! ## Numerals -/

/-- The value of a digit, `0` to `9` and `A` to `F`. -/
def digitValue (c : Char) : Nat := if c.toNat < 58 then c.toNat - 48 else c.toNat - 55

theorem digitValue_digitChar {d : Nat} (h : d < 16) : digitValue (digitChar d) = d := by
  have hall : ∀ d : Fin 16, digitValue (digitChar d.val) = d.val := by decide
  exact hall ⟨d, h⟩

/-- Zeros on the left do not count. -/
theorem value_zeros (b k : Nat) (ds : List Nat) :
    value b (List.replicate k 0 ++ ds) = value b ds := by
  induction k with
  | zero => rfl
  | succ k ih =>
    rw [← ih]
    simp [value, List.replicate_succ]

theorem toList_natural (b width n : Nat) :
    (natural b width n).toList =
      List.replicate (width - (digits b n).length) '0' ++ (digits b n).map digitChar := by
  simp only [natural, String.toList_ofList, List.length_map]

/-- A numeral gives its number back, whatever its width. -/
theorem value_natural (hb : 2 ≤ b) (hb' : b ≤ 16) (width n : Nat) :
    value b ((natural b width n).toList.map digitValue) = n := by
  have hzero : digitValue '0' = 0 := by decide
  have hdigits : (digits b n).map (digitValue ∘ digitChar) = digits b n := by
    rw [List.map_congr_left fun d hd => ?_, List.map_id]
    exact digitValue_digitChar (Nat.lt_of_lt_of_le (lt_of_mem_digits hb hd) hb')
  rw [toList_natural, List.map_append, List.map_replicate, List.map_map, hzero, hdigits,
    value_zeros, value_digits hb]

/-- All characters of a numeral are digits of its base. -/
theorem mem_natural (hb : 2 ≤ b) {width n : Nat} {c : Char}
    (hc : c ∈ (natural b width n).toList) : ∃ d < b, digitChar d = c := by
  rw [toList_natural, List.mem_append] at hc
  rcases hc with hzero | hdigit
  · exact ⟨0, by omega, (List.eq_of_mem_replicate hzero).symm⟩
  · obtain ⟨d, hd, rfl⟩ := List.mem_map.1 hdigit
    exact ⟨d, lt_of_mem_digits hb hd, rfl⟩

theorem sign_not_mem_natural (hb : 2 ≤ b) (hb' : b ≤ 16) (width n : Nat) :
    '-' ∉ (natural b width n).toList := by
  intro hc
  obtain ⟨d, hd, hsign⟩ := mem_natural hb hc
  have hall : ∀ d : Fin 16, digitChar d.val ≠ '-' := by decide
  exact hall ⟨d, Nat.lt_of_lt_of_le hd hb'⟩ hsign

/-- The number that a numeral with or without a sign stands for. -/
def reading (b : Nat) (cs : List Char) : Int :=
  if '-' ∈ cs then -(value b (cs.tail.map digitValue) : Int) else value b (cs.map digitValue)

theorem reading_signed (hb : 2 ≤ b) (hb' : b ≤ 16) (width : Nat) (n : Int) :
    reading b (signed b width n).toList = n := by
  unfold signed reading
  split
  next hneg =>
    have hchars (t : String) : ("-" ++ t).toList = '-' :: t.toList := by simp
    rw [hchars, if_pos (List.mem_cons_self ..), List.tail_cons, value_natural hb hb']
    omega
  next hpos =>
    rw [if_neg (sign_not_mem_natural hb hb' width _), value_natural hb hb']
    omega

theorem signed_inj (hb : 2 ≤ b) (hb' : b ≤ 16) {width width' : Nat} {n m : Int}
    (h : signed b width n = signed b width' m) : n = m := by
  rw [← reading_signed hb hb' width n, h, reading_signed hb hb']

theorem hex_inj {width width' : Nat} {n m : Int} (h : hex width n = hex width' m) : n = m :=
  signed_inj (by decide) (by decide) h

theorem decimal_inj {n m : Int} (h : decimal n = decimal m) : n = m :=
  signed_inj (by decide) (by decide) h

/-- The numeral of a natural number has no sign, and all its characters are digits. -/
theorem mem_signed (hb : 2 ≤ b) {width n : Nat} {c : Char}
    (hc : c ∈ (signed b width n).toList) : ∃ d < b, digitChar d = c := by
  rw [signed, if_neg (by omega)] at hc
  exact mem_natural hb hc

/-- A numeral has a first character. -/
theorem toList_signed_ne_nil (hb : 2 ≤ b) (width n : Nat) : (signed b width n).toList ≠ [] := by
  rw [signed, if_neg (by omega), toList_natural]
  simp [digits_ne_nil hb]

end Numeral

/-! ## Separators -/

/-- Texts with a separator between them can be told apart, if the separator is in none of them. -/
theorem eq_of_intercalate_eq {sep : String} {c : Char} (hsep : sep.toList = [c])
    {ls ms : List String} (hls : ∀ l ∈ ls, c ∉ l.toList) (hms : ∀ m ∈ ms, c ∉ m.toList)
    (hls' : ls ≠ []) (hms' : ms ≠ []) (h : sep.intercalate ls = sep.intercalate ms) : ls = ms := by
  -- splitting at the separator finds the texts again
  have hsplit (ts : List String) (hts : ∀ t ∈ ts, c ∉ t.toList) (hts' : ts ≠ []) :
      List.splitOn c (sep.intercalate ts).toList = ts.map String.toList := by
    rw [String.toList_intercalate, hsep]
    refine List.splitOn_intercalate c (fun t ht => ?_) (by simpa using hts')
    obtain ⟨u, hu, rfl⟩ := List.mem_map.1 ht
    exact hts u hu
  have htexts : ls.map String.toList = ms.map String.toList := by
    rw [← hsplit ls hls hls', h, hsplit ms hms hms']
  exact (List.map_inj_right fun _ _ => String.toList_inj.1).1 htexts

/-- A separator goes in front of every text but the first. -/
theorem intercalate_cons (sep t : String) (ts : List String) :
    sep.intercalate (t :: ts) = t ++ String.join (ts.map (sep ++ ·)) := by
  induction ts generalizing t with
  | nil => rw [String.intercalate_singleton, List.map_nil, String.join_nil, String.append_empty]
  | cons u ts ih =>
    rw [String.intercalate_cons_cons, ih, List.map_cons, String.join_cons, String.append_assoc,
      String.append_assoc]

/-! ## Forms -/

namespace Numeral

/-- Whether a character can stand in a numeral. -/
def inNumeral (c : Char) : Bool := c == '-' || (List.range 16).any fun d => digitChar d == c

theorem inNumeral_of_mem_signed (hb : 2 ≤ b) (hb' : b ≤ 16) {width : Nat} {n : Int} {c : Char}
    (hc : c ∈ (signed b width n).toList) : inNumeral c = true := by
  simp only [inNumeral, Bool.or_eq_true, beq_iff_eq, List.any_eq_true, List.mem_range]
  have hdigit {k m : Nat} (hc : c ∈ (natural b k m).toList) : ∃ d < 16, digitChar d = c := by
    obtain ⟨d, hd, hchar⟩ := mem_natural hb hc
    exact ⟨d, Nat.lt_of_lt_of_le hd hb', hchar⟩
  unfold signed at hc
  split at hc
  next hneg =>
    rw [String.toList_append, List.mem_append] at hc
    exact hc.imp List.mem_singleton.1 hdigit
  next hpos => exact .inr (hdigit hc)

/-- A numeral in front of the text does not go on into it. -/
def EndsBefore (cs : List Char) : Prop := cs.head?.all (!inNumeral ·) = true

/-- The characters of numerals at the front of a text are those of the numeral that ends there. -/
theorem span_signed (hb : 2 ≤ b) (hb' : b ≤ 16) (width : Nat) (n : Int) {cs : List Char}
    (h : EndsBefore cs) :
    ((signed b width n).toList ++ cs).takeWhile inNumeral = (signed b width n).toList ∧
      ((signed b width n).toList ++ cs).dropWhile inNumeral = cs := by
  have hin : ∀ c ∈ (signed b width n).toList, inNumeral c = true :=
    fun c hc => inNumeral_of_mem_signed hb hb' hc
  rw [List.takeWhile_append_of_pos hin, List.dropWhile_append_of_pos hin]
  cases cs with
  | nil => simp
  | cons c cs =>
    have hc : inNumeral c = false := by simpa [EndsBefore] using h
    simp [hc]

end Numeral

/-- A numeral behind a label. The label is not empty, and a numeral in front of it ends there. -/
structure FormField where
  label : String
  base : Nat
  width : Nat
  begins : label.toList.head?.any (!Numeral.inNumeral ·) = true := by decide
  two_le_base : 2 ≤ base := by decide
  base_le : base ≤ 16 := by decide

namespace FormField

/-- The text of a field that holds `n`. -/
def text (f : FormField) (n : Int) : String := f.label ++ Numeral.signed f.base f.width n

/-- Reads the field at the front of a text, and leaves what is behind it. -/
def read? (f : FormField) (cs : List Char) : Option (Int × List Char) :=
  if f.label.toList.isPrefixOf cs then
    let rest := cs.drop f.label.toList.length
    some (Numeral.reading f.base (rest.takeWhile Numeral.inNumeral),
      rest.dropWhile Numeral.inNumeral)
  else none

/-- A field is read back, whatever its width, where a text follows that ends the numeral. -/
theorem read?_text (f : FormField) (n : Int) {rest : List Char} (h : Numeral.EndsBefore rest) :
    f.read? ((f.text n).toList ++ rest) = some (n, rest) := by
  obtain ⟨htake, hdrop⟩ := Numeral.span_signed f.two_le_base f.base_le f.width n h
  have hlabel : f.label.toList.isPrefixOf
      (f.label.toList ++ ((Numeral.signed f.base f.width n).toList ++ rest)) = true :=
    List.isPrefixOf_iff_prefix.2 (List.prefix_append ..)
  rw [text, read?, String.toList_append, List.append_assoc, if_pos hlabel, List.drop_left]
  simp only [htake, hdrop, Numeral.reading_signed f.two_le_base f.base_le]

theorem endsBefore_text_append (f : FormField) (n : Int) (rest : List Char) :
    Numeral.EndsBefore ((f.text n).toList ++ rest) := by
  have hbegins := f.begins
  rw [text, String.toList_append, List.append_assoc]
  cases hlabel : f.label.toList with
  | nil => simp [hlabel] at hbegins
  | cons c label => simpa [hlabel, Numeral.EndsBefore] using hbegins

end FormField

/-- Fields that stand one behind the other. -/
abbrev Form := List FormField

namespace Form

/-- The text of a form with its values. -/
def fill (form : Form) (values : List Int) : String :=
  String.join (List.zipWith FormField.text form values)

theorem fill_cons (f : FormField) (form : Form) (n : Int) (values : List Int) :
    fill (f :: form) (n :: values) = f.text n ++ form.fill values :=
  String.join_cons

theorem fill_append {form form' : Form} {values values' : List Int}
    (hlen : values.length = form.length) :
    fill (form ++ form') (values ++ values') = form.fill values ++ form'.fill values' := by
  rw [fill, fill, fill, List.zipWith_append hlen.symm, String.join_append]

/-- Reads the values of a form at the front of a text, and leaves what is behind it. -/
def read? : Form → List Char → Option (List Int × List Char)
  | [], cs => some ([], cs)
  | f :: form, cs => do
    let (n, cs) ← f.read? cs
    let (values, cs) ← read? form cs
    return (n :: values, cs)

/-- A numeral ends before the fields that follow it, and where none follow before the text behind. -/
theorem endsBefore_fill_append (form : Form) (values : List Int) {rest : List Char}
    (h : Numeral.EndsBefore rest) : Numeral.EndsBefore ((form.fill values).toList ++ rest) := by
  match form, values with
  | [], _ => exact h
  | _ :: _, [] => exact h
  | f :: form, n :: values =>
    rw [fill_cons, String.toList_append, List.append_assoc]
    exact f.endsBefore_text_append n _

/-- A form gives its values back. -/
theorem read?_fill (form : Form) (values : List Int) (hlen : values.length = form.length)
    {rest : List Char} (h : Numeral.EndsBefore rest) :
    form.read? ((form.fill values).toList ++ rest) = some (values, rest) := by
  induction form generalizing values with
  | nil =>
    rw [List.length_eq_zero_iff.1 hlen]
    rfl
  | cons f form ih =>
    obtain ⟨n, values, rfl⟩ := List.exists_cons_of_length_eq_add_one hlen
    have hfirst := f.read?_text n (endsBefore_fill_append form values h)
    have hrest := ih values (Nat.succ.inj hlen)
    rw [fill_cons, String.toList_append, List.append_assoc, read?, hfirst]
    simp only [Option.bind_eq_bind, Option.bind_some, hrest]
    rfl

end Form

end Chip8Vm
