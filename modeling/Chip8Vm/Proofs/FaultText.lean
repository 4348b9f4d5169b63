import Chip8Vm.Proofs.Reading
import Chip8Vm.Proofs.Step

/-!
# Faults are read off their texts

What a report tells of a machine is a `Snapshot`. The six lines of a report are one form of
thirty-seven fields (`Snapshot.report_eq`). Every numeral, whatever its width and sign, ends at the
label of the next one, so that the snapshot can be read back (`Snapshot.ofReport?_report`).

The text of a fault is its reason, a form with or without a word, and the report below, which may be
any text. No reason has a colon in it, so that it ends at the first one; the label there tells which
form it is, and the last numeral ends with the line or with the text (`Fault.ofMessage?_message`).

`Fault.texts_tell_all` is the payoff: reports of different snapshots differ and so do the texts of
different faults, and a fault in a step is recovered from its text together with the snapshot of the
machine.
-/

namespace Chip8Vm

/-! ## Reports -/

/-- What a report tells of a machine. -/
structure Snapshot where
  pc : Int
  index : Nat
  sp : Nat
  delay : Nat
  sound : Nat
  registers : Vector Nat 16
  stack : Vector Nat 16
deriving DecidableEq

/-- What a report of the machine tells. -/
def State.snapshot (s : State) : Snapshot :=
  ⟨s.pc, s.index, s.sp, s.delay, s.sound, s.registers, s.stack⟩

namespace Snapshot

/-- A cell in a row of cells: the first one begins a line, and two spaces part the others. -/
def cellField (label : Nat → String) (width k : Nat) : FormField where
  label := (if k = 0 then "\n" else "  ") ++ label k
  base := 16
  width := width
  begins := by
    have hline : Numeral.inNumeral '\n' = false := by decide
    have hspace : Numeral.inNumeral ' ' = false := by decide
    split <;> simp [hline, hspace]

/-- The fields of a row of sixteen cells. -/
def rowForm (label : Nat → String) (width : Nat) : Form :=
  (List.range 16).map (cellField label width)

/-- The fields of a report. -/
def form : Form :=
  { label := "pc: 0x", base := 16, width := 3 } ::
  { label := "\ni: 0x", base := 16, width := 3 } ::
  { label := "\nsp: ", base := 10, width := 0 } ::
  { label := "\ndelay: ", base := 10, width := 0 } ::
  { label := " sound: ", base := 10, width := 0 } ::
  (rowForm (fun k => "v" ++ Numeral.hex 1 k ++ ": 0x") 2 ++
    rowForm (fun k => "stack[" ++ Numeral.decimal k ++ "]: 0x") 3)

/-- What the cells of a row hold, as the values of its fields. -/
def cells (row : Vector Nat 16) : List Int := row.toList.map Int.ofNat

/-- The values of the fields of a report. -/
def values (v : Snapshot) : List Int :=
  v.pc :: v.index :: v.sp :: v.delay :: v.sound :: (cells v.registers ++ cells v.stack)

theorem length_cells (row : Vector Nat 16) : (cells row).length = 16 := by
  rw [cells, List.length_map, Vector.length_toList]

theorem length_rowForm (label : Nat → String) (width : Nat) : (rowForm label width).length = 16 := by
  rw [rowForm, List.length_map, List.length_range]

theorem length_values (v : Snapshot) : v.values.length = form.length := by
  simp [values, form, length_cells, length_rowForm]

/-- A row is a line of its own. -/
theorem fill_rowForm (label : Nat → String) (width : Nat) (row : Vector Nat 16) :
    (rowForm label width).fill (cells row) =
      "\n" ++ "  ".intercalate
        (row.toList.mapIdx fun k (v : Nat) => label k ++ Numeral.hex width v) := by
  have htexts : List.zipWith FormField.text (rowForm label width) (cells row) =
      row.toList.mapIdx fun k (v : Nat) => (cellField label width k).text v := by
    refine List.ext_getElem (by simp [length_cells, length_rowForm]) fun k _ _ => ?_
    simp [rowForm, cells]
  rw [Form.fill, htexts]
  cases hrow : row.toList with
  | nil => simpa [hrow] using row.length_toList
  | cons v l =>
    -- every cell behind the first brings the gap in front of it along
    have hgaps : (l.mapIdx fun k (v : Nat) => label (k + 1) ++ Numeral.hex width v).map ("  " ++ ·) =
        l.mapIdx fun k (v : Nat) => (cellField label width (k + 1)).text v := by
      refine List.ext_getElem (by simp) fun k _ _ => ?_
      simp [FormField.text, cellField, Numeral.hex, String.append_assoc]
    rw [List.mapIdx_cons, List.mapIdx_cons, intercalate_cons, hgaps, String.join_cons]
    simp [FormField.text, cellField, Numeral.hex, String.append_assoc]

/-- A report is its form, filled in. -/
theorem report_eq (s : State) : s.report = form.fill s.snapshot.values := by
  have hlines : s.report = "\n".intercalate
    [ "pc: 0x" ++ Numeral.hex 3 s.pc,
      "i: 0x" ++ Numeral.hex 3 s.index,
      "sp: " ++ Numeral.decimal s.sp,
      "delay: " ++ Numeral.decimal s.delay ++ " sound: " ++ Numeral.decimal s.sound,
      "  ".intercalate (s.registers.toList.mapIdx fun k (v : Nat) =>
        "v" ++ Numeral.hex 1 k ++ ": 0x" ++ Numeral.hex 2 v),
      "  ".intercalate (s.stack.toList.mapIdx fun k (v : Nat) =>
        "stack[" ++ Numeral.decimal k ++ "]: 0x" ++ Numeral.hex 3 v) ] := rfl
  have hregisters : (cells s.registers).length =
      (rowForm (fun k => "v" ++ Numeral.hex 1 k ++ ": 0x") 2).length := by
    rw [length_cells, length_rowForm]
  simp only [hlines, form, values, State.snapshot, Form.fill_cons]
  rw [Form.fill_append hregisters, fill_rowForm, fill_rowForm, ← String.toList_inj]
  simp [intercalate_cons, FormField.text, Numeral.hex, Numeral.decimal]

/-- The row whose cells come first among some values. -/
def rowOf (values : List Int) : Vector Nat 16 := .ofFn fun k => (values.getD k 0).toNat

theorem rowOf_cells_append (row : Vector Nat 16) (rest : List Int) :
    rowOf (cells row ++ rest) = row := by
  refine Vector.ext fun k hk => ?_
  have hcell : k < (cells row).length := by rwa [length_cells]
  simp only [rowOf, Vector.getElem_ofFn, List.getD_eq_getElem?_getD,
    List.getElem?_append_left hcell, List.getElem?_eq_getElem hcell, Option.getD_some]
  simp [cells]

/-- Reads a snapshot off a report. -/
def ofReport? (report : String) : Option Snapshot :=
  match form.read? report.toList with
  | some (pc :: index :: sp :: delay :: sound :: rows, []) =>
    some ⟨pc, index.toNat, sp.toNat, delay.toNat, sound.toNat, rowOf rows, rowOf (rows.drop 16)⟩
  | _ => none

/-- A report gives back what it tells. -/
theorem ofReport?_report (s : State) : ofReport? s.report = some s.snapshot := by
  have hend : Numeral.EndsBefore [] := rfl
  have hread := form.read?_fill s.snapshot.values s.snapshot.length_values hend
  rw [List.append_nil, ← report_eq] at hread
  have hregisters : rowOf (cells s.registers ++ cells s.stack) = s.registers := rowOf_cells_append ..
  have hstack : rowOf ((cells s.registers ++ cells s.stack).drop 16) = s.stack := by
    rw [List.drop_left' (length_cells _), ← List.append_nil (cells s.stack), rowOf_cells_append]
  simp only [ofReport?, hread, values, State.snapshot, hregisters, hstack, Int.toNat_natCast]

end Snapshot

/-! ## Faults -/

namespace Fault

/-- The kind of fault that a reason names. -/
def Kind.ofReason? (reason : String) : Option Kind :=
  [.machine, .unknownOpcode, .stackOverflow, .stackUnderflow, .programCounter].find?
    (·.reason == reason)

theorem Kind.ofReason?_reason (kind : Kind) : ofReason? kind.reason = some kind := by
  cases kind <;> decide

theorem Kind.colon_not_mem_reason (kind : Kind) : ':' ∉ kind.reason.toList := by
  cases kind <;> simp [reason]

/-- What follows the reason where a fault has no word. -/
def bareForm : Form := [{ label := ": pc 0x", base := 16, width := 3 }]

/-- What follows the reason where a fault has a word. -/
def wordForm : Form :=
  [{ label := ": opcode ", base := 16, width := 4 }, { label := " at pc 0x", base := 16, width := 3 }]

/-- What the headline says behind the reason. -/
def details (f : Fault) : String :=
  match f.word with
  | none => bareForm.fill [f.pc]
  | some w => wordForm.fill [w, f.pc]

/-- What stands behind the headline. -/
def below (f : Fault) : String := if f.report = "" then "" else "\n" ++ f.report

theorem message_eq (f : Fault) : f.message = f.kind.reason ++ (f.details ++ f.below) := by
  have hheadline : f.headline = f.kind.reason ++ f.details := by
    unfold headline details
    rw [← String.toList_inj]
    cases f.word <;> simp [Form.fill, bareForm, wordForm, FormField.text, Numeral.hex]
  unfold message below
  split
  next hempty => rw [hheadline, String.append_empty]
  next hreport => rw [hheadline, String.append_assoc, String.append_assoc]

/-- Reads a fault off its text. -/
def ofMessage? (message : String) : Option Fault := do
  let kind ← Kind.ofReason? (String.ofList (message.toList.takeWhile (· != ':')))
  let details := message.toList.dropWhile (· != ':')
  match bareForm.read? details, wordForm.read? details with
  | some ([pc], below), _ => some ⟨kind, none, pc, String.ofList below.tail⟩
  | _, some ([w, pc], below) => some ⟨kind, some w, pc, String.ofList below.tail⟩
  | _, _ => none

/-- A reason ends at the first colon. -/
theorem span_message (f : Fault) :
    f.message.toList.takeWhile (· != ':') = f.kind.reason.toList ∧
      f.message.toList.dropWhile (· != ':') = f.details.toList ++ f.below.toList := by
  have hreason : ∀ c ∈ f.kind.reason.toList, (c != ':') = true := fun c hc =>
    bne_iff_ne.2 (ne_of_mem_of_not_mem hc f.kind.colon_not_mem_reason)
  have hcolon : f.details.toList.head? = some ':' := by
    unfold details
    cases f.word <;> simp [Form.fill, bareForm, wordForm, FormField.text]
  obtain ⟨cs, hdetails⟩ := List.head?_eq_some_iff.1 hcolon
  rw [message_eq, String.toList_append, String.toList_append,
    List.takeWhile_append_of_pos hreason, List.dropWhile_append_of_pos hreason, hdetails]
  simp

theorem endsBefore_below (f : Fault) : Numeral.EndsBefore f.below.toList := by
  unfold below
  split
  next hempty => rfl
  next hreport =>
    have hline : Numeral.inNumeral '\n' = false := by decide
    simp [Numeral.EndsBefore, hline]

/-- Behind the end of the headline stands the report. -/
theorem tail_below (f : Fault) : String.ofList f.below.toList.tail = f.report := by
  unfold below
  split
  next hempty =>
    rw [hempty]
    rfl
  next hreport => simp

/-- Where a word follows the reason, no address does. -/
theorem read?_bareForm_of_word (w pc : Int) (rest : List Char) :
    bareForm.read? ((wordForm.fill [w, pc]).toList ++ rest) = none := by
  simp [Form.read?, bareForm, wordForm, Form.fill_cons, FormField.text, FormField.read?]

/-- The text of a fault gives it back, whatever the report. -/
theorem ofMessage?_message (f : Fault) : ofMessage? f.message = some f := by
  obtain ⟨hreason, hdetails⟩ := f.span_message
  have hends := f.endsBefore_below
  have hreport := f.tail_below
  simp only [ofMessage?, hreason, String.ofList_toList, Kind.ofReason?_reason, hdetails]
  obtain ⟨kind, word, pc, report⟩ := f
  cases word with
  | none =>
    have hread := bareForm.read?_fill [pc] rfl hends
    simp [details, hread, hreport]
  | some w =>
    have hread := wordForm.read?_fill [w, pc] rfl hends
    have hbare := read?_bareForm_of_word w pc (below ⟨kind, some w, pc, report⟩).toList
    simp [details, hread, hbare, hreport]

/-- A fault in a step reports the state before the step. -/
theorem report_of_step {random : Nat → Nat} {tracing : Bool} {s : State} {f : Fault}
    (h : (s.step random tracing).result = .error f) : f.report = s.report := by
  have hr := s.step_reply random tracing
  generalize s.step random tracing = r at hr h
  cases hr with
  | outside | unknown | stack =>
    cases h
    rfl
  | wait | execute => cases h

/-- **The texts tell all.** Two reports are the same only if all that they tell is, and two faults have
the same text only if they are the same. So the text of a fault in a step gives back the fault, and
with its report the program counter, the address register, the stack pointer, the timers, the
registers and the stack of the machine. -/
theorem texts_tell_all :
    (∀ s t : State, s.report = t.report ↔ s.snapshot = t.snapshot) ∧
    (∀ f g : Fault, f.message = g.message ↔ f = g) ∧
    ∀ (random : Nat → Nat) (tracing : Bool) (s : State) (f : Fault),
      (s.step random tracing).result = .error f →
        ofMessage? f.message = some f ∧ Snapshot.ofReport? f.report = some s.snapshot := by
  refine ⟨fun s t => ⟨fun h => ?_, fun h => ?_⟩, fun f g => ⟨fun h => ?_, congrArg message⟩, ?_⟩
  · rw [← Option.some.injEq, ← Snapshot.ofReport?_report, h, Snapshot.ofReport?_report]
  · rw [Snapshot.report_eq, h, Snapshot.report_eq]
  · rw [← Option.some.injEq, ← ofMessage?_message, h, ofMessage?_message]
  · intro random tracing s f h
    refine ⟨f.ofMessage?_message, ?_⟩
    rw [report_of_step h]
    exact Snapshot.ofReport?_report s

/-- A program counter below memory is read off the text of the fault with its sign, and once more off
the report. -/
theorem texts_tell_all_below_memory :
    let s := { State.fresh false with pc := -5, index := 0xFFFF, sp := 2 }
    let f : Fault := ⟨.programCounter, none, -5, s.report⟩
    (s.step id false).result = .error f ∧ ofMessage? f.message = some f ∧
      Snapshot.ofReport? f.report = some s.snapshot := by
  intro s f
  have hfault : (s.step id false).result = .error f := rfl
  obtain ⟨-, -, hread⟩ := texts_tell_all
  exact ⟨hfault, hread id false s f hfault⟩

end Fault

end Chip8Vm
