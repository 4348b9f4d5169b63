import Mathlib.Data.List.Basic
import Chip8Vm.Proofs.Moves
import Chip8Vm.Proofs.Reading

/-!
# What a trace tells

Tracing only adds lines: with tracing off every call has the same result and leaves the same state,
and prints nothing (`Operation.perform_muted`). What it adds is told by `State.narration`, which
looks at the wait, the program counter and the word it points at and at nothing else: an instruction
that has been decoded is told, also where the stack then refuses it, and a step that gets no further
than the word is passed over in silence (`State.printed_step`).

A line tells the address and the word at its start, from where `Trace.heading?` reads them back, and
what is read off a whole trace are the instructions that were handed on to be executed, in order:
`trace_tells_dispatched`.
-/

namespace Chip8Vm

/-- The same reply with nothing printed. -/
def Reply.muted {ε α : Type} (r : Reply ε α) : Reply ε α := { r with printed := [] }

/-- The same surroundings with tracing on or off. -/
def Surroundings.traced (env : Surroundings) (tracing : Bool) : Surroundings := { env with tracing }

variable {env : Surroundings} {random : Nat → Nat} {tracing : Bool} {i : Instruction} {s : State}

/-! ## Without tracing -/

namespace Reply

variable {ε α : Type}

theorem muted_of_printed {r : Reply ε α} (h : r.printed = []) : r.muted = r := by
  rw [muted, ← h]

theorem muted_after (lines : List String) (r : Reply ε α) : (r.after lines).muted = r.muted := rfl

theorem muted_note (lines : α → List String) (r : Reply ε α) : (r.note lines).muted = r.muted := by
  unfold note
  split <;> rfl

end Reply

namespace State

theorem printed_load (program : Bytes) (s : State) : (s.load program).printed = [] := by
  unfold load
  split <;> rfl

theorem printed_setKey (k : Int) (held : Bool) (s : State) : (s.setKey k held).printed = [] := by
  unfold setKey
  split <;> rfl

theorem printed_deliverKey (k : Int) (s : State) : (s.deliverKey k).printed = [] := by
  unfold deliverKey
  split
  · split <;> rfl
  · rfl

/-- A step that is not traced is the same step without its lines. -/
theorem step_muted (random : Nat → Nat) (tracing : Bool) (s : State) :
    s.step random false = (s.step random tracing).muted := by
  have htrace (i : Instruction) : s.traceOf false i = [] := by
    unfold traceOf
    split <;> rfl
  unfold step
  split
  · rfl
  · split
    · rfl
    · split
      · rfl
      · simp only [dispatch, htrace, Reply.muted_after]
        split <;> rfl

theorem runSteps_muted (random : Nat → Nat) (tracing : Bool) (n : Nat) (s : State) :
    s.runSteps random false n = (s.runSteps random tracing n).muted := by
  induction n generalizing s with
  | zero => rfl
  | succ n ih =>
    have hstep := step_muted random tracing s
    rcases hr : (s.step random tracing).result with f | _ | i
    · simp only [runSteps, hstep, Reply.muted, hr]
    · simp only [runSteps, hstep, Reply.muted, hr]
    · simp only [runSteps, hstep, Reply.muted, hr, ih]
      rfl

theorem loadFile_muted (read : String → Except ReadError Bytes) (tracing : Bool) (path : String)
    (s : State) : s.loadFile read false path = (s.loadFile read tracing path).muted := by
  unfold loadFile
  rw [Reply.muted_after]
  cases read path with
  | error e => rfl
  | ok program =>
    have hquiet : ((s.load program).relabel LoadError.tooLarge id).printed = [] :=
      printed_load program s
    simp only [Reply.muted_note, Trace.log_false, Reply.muted_of_printed hquiet]
    unfold load
    split <;> rfl

end State

namespace Operation

/-- Only what executes instructions and what loads files prints anything. -/
theorem printed_perform {op : Operation} (hstep : op ≠ .step) (hrun : ∀ cycles, op ≠ .run cycles)
    (hfile : ∀ path, op ≠ .loadFile path) : (op.perform env s).printed = [] := by
  cases op with
  | step => exact absurd rfl hstep
  | run cycles => exact absurd rfl (hrun cycles)
  | loadFile path => exact absurd rfl (hfile path)
  | load program => exact State.printed_load program s
  | setKey k held => exact State.printed_setKey k held s
  | deliverKey k => exact State.printed_deliverKey k s
  | fetch =>
    unfold perform
    cases s.memory.word? s.pc <;> rfl
  | tickTimers | clearDirty | reset | isDirty | display | report => rfl

/-- A call that is not traced is the same call without its lines. -/
theorem perform_muted (env : Surroundings) (op : Operation) (s : State) :
    op.perform (env.traced false) s = (op.perform env s).muted := by
  have hquiet (hstep : op ≠ .step) (hrun : ∀ cycles, op ≠ .run cycles)
      (hfile : ∀ path, op ≠ .loadFile path) :
      op.perform (env.traced false) s = (op.perform env s).muted := by
    rw [Reply.muted_of_printed (printed_perform hstep hrun hfile)]
    cases op with
    | step => exact absurd rfl hstep
    | run cycles => exact absurd rfl (hrun cycles)
    | loadFile path => exact absurd rfl (hfile path)
    | _ => rfl
  cases op with
  | step => exact congrArg (Reply.relabel _ _) (State.step_muted env.random env.tracing s)
  | run cycles =>
    exact congrArg (Reply.relabel _ _) (State.runSteps_muted env.random env.tracing cycles.toNat s)
  | loadFile path =>
    exact congrArg (Reply.relabel _ _) (State.loadFile_muted env.read env.tracing path s)
  | _ => exact hquiet nofun nofun nofun

end Operation

namespace State

/-- So is a history, call by call. -/
theorem replies_muted (env : Surroundings) (history : List Operation) (s : State) :
    s.replies (env.traced false) history = (s.replies env history).map Reply.muted := by
  induction history generalizing s with
  | nil => rfl
  | cons op history ih =>
    simp only [replies, op.perform_muted env, List.map_cons]
    exact congrArg _ (ih _)

theorem runStates_traced (tracing : Bool) (n : Nat) (s : State) :
    s.runStates random false n = s.runStates random tracing n := by
  induction n generalizing s with
  | zero => rfl
  | succ n ih =>
    simp only [runStates, step_muted random tracing s, Reply.muted, ih]

/-- A history consists of the same moves with tracing off. -/
theorem moves_traced (env : Surroundings) (history : List Operation) (s : State) :
    s.moves (env.traced false) history = s.moves env history := by
  induction history generalizing s with
  | nil => rfl
  | cons op history ih =>
    have hfirst : op.moves (env.traced false) s = op.moves env s := by
      cases op with
      | run cycles => exact congrArg (List.map _) (runStates_traced env.tracing cycles.toNat s)
      | _ => rfl
    rw [moves, moves, hfirst, op.perform_muted env, ih]
    rfl

/-! ## The lines -/

/-- What a step prints while tracing: nothing if the machine waits, if there is no word at the
program counter or if the word is no instruction, and otherwise the address, the word and the
instruction, with a remark on those that have no effect. -/
def narration (s : State) : List String :=
  if s.waiting then []
  else if s.pc < 0 ∨ 4096 ≤ s.pc + 1 then []
  else
    let w : Nat := s.memory.byte s.pc.toNat * 256 + s.memory.byte (s.pc.toNat + 1)
    match Instruction.decode w s.pc with
    | .error _ => []
    | .ok i =>
      (Numeral.hex 3 s.pc ++ ": " ++ Numeral.hex 4 w ++ "  " ++ i.mnemonic) ::
        if i.op = .system then ["SYS call ignored (0nnn)"] else []

theorem narration_waiting (hw : s.waiting = true) : s.narration = [] := by
  rw [narration, if_pos hw]

theorem narration_outside (hf : s.fetch? = none) : s.narration = [] := by
  unfold narration
  split
  · rfl
  · rw [if_pos (fetch?_eq_none_iff.1 hf)]

/-- Where the program counter points at a word, the lines are about that word. -/
theorem narration_of_fetch? {w : Nat} (hw : s.waiting = false) (hf : s.fetch? = some w) :
    s.narration =
      match Instruction.lookUp Instruction.table w with
      | none => []
      | some i => s.traceOf true i := by
  obtain ⟨hpc, hword⟩ := fetch?_eq_some_iff.1 hf
  have hin : ¬(s.pc < 0 ∨ 4096 ≤ s.pc + 1) := by omega
  have hbytes : s.memory.byte s.pc.toNat * 256 + s.memory.byte (s.pc.toNat + 1) = w := hword
  rw [narration, hw, if_neg Bool.false_ne_true, if_neg hin]
  simp only [hbytes, Instruction.decode, Instruction.decodeBy]
  cases hd : Instruction.lookUp Instruction.table w with
  | none => rfl
  | some i =>
    have hi : i.word = w := Instruction.word_of_lookUp hd
    simp only [traceOf, Trace.log, traceLine, hi]
    rfl

/-- A traced step prints what its state has to tell. -/
theorem printed_step (random : Nat → Nat) (s : State) :
    (s.step random true).printed = s.narration := by
  have hr := step_reply random true s
  generalize s.step random true = r at hr ⊢
  cases hr with
  | wait hw => exact (narration_waiting hw).symm
  | outside hw hf => exact (narration_outside hf).symm
  | unknown hw hf hd =>
    rw [narration_of_fetch? hw hf, hd]
    rfl
  | stack hw hf hd hk => rw [narration_of_fetch? hw hf, hd]
  | execute hw hf hd hk => rw [narration_of_fetch? hw hf, hd]

theorem printed_runSteps (random : Nat → Nat) (tracing : Bool) (n : Nat) (s : State) :
    (s.runSteps random tracing n).printed =
      (s.runStates random tracing n).flatMap fun t => (t.step random tracing).printed := by
  induction n generalizing s with
  | zero => rfl
  | succ n ih =>
    rcases hr : (s.step random tracing).result with f | _ | i
    · simp [runSteps, runStates, hr]
    · simp [runSteps, runStates, hr]
    · simp only [runSteps, runStates, hr, List.flatMap_cons, Reply.after, ih]

/-- A history prints what its moves print, one after the other. -/
theorem printed_replies (env : Surroundings) (history : List Operation) (s : State) :
    (s.replies env history).flatMap (·.printed) =
      (s.moves env history).flatMap fun m => (m.reply env).printed := by
  induction history generalizing s with
  | nil => rfl
  | cons op history ih =>
    have hfirst : (op.perform env s).printed =
        (op.moves env s).flatMap fun m => (m.reply env).printed := by
      cases op with
      | run cycles =>
        have hrun := printed_runSteps env.random env.tracing cycles.toNat s
        simp only [Operation.moves, List.flatMap_map]
        exact hrun
      | _ => exact (List.append_nil _).symm
    simp only [replies, moves, List.flatMap_cons, List.flatMap_append, hfirst, ih]

end State

/-- A move that is not about a file prints what its step has to tell, if it is a step. -/
theorem Move.printed_reply {m : Move} (hrun : ∀ cycles, m.call ≠ .run cycles)
    (hfile : ∀ path, m.call ≠ .loadFile path) :
    (m.reply (env.traced true)).printed = if m.call = .step then m.before.narration else [] := by
  by_cases hstep : m.call = .step
  · rw [if_pos hstep, reply, hstep]
    exact State.printed_step env.random m.before
  · rw [if_neg hstep]
    exact Operation.printed_perform hstep hrun hfile

/-! ## Reading a trace -/

/-- The address and the word at the start of a line, two numerals with a colon and a blank between
them and a blank behind; a line without a colon has none. -/
def Trace.heading? (line : String) : Option (Int × Int) :=
  let address := line.toList.takeWhile (· ≠ ':')
  match line.toList.dropWhile (· ≠ ':') with
  | ':' :: ' ' :: rest =>
    some (Numeral.reading 16 address, Numeral.reading 16 (rest.takeWhile (· ≠ ' ')))
  | _ => none

/-- Neither a colon nor a blank is a digit. -/
theorem Numeral.ne_of_mem_hex {width n : Nat} {c : Char} (hc : c ∈ (hex width n).toList) :
    c ≠ ':' ∧ c ≠ ' ' := by
  obtain ⟨d, hd, rfl⟩ := mem_signed (by decide) hc
  have hall : ∀ d : Fin 16, digitChar d.val ≠ ':' ∧ digitChar d.val ≠ ' ' := by decide
  exact hall ⟨d, hd⟩

/-- A line of the trace gives its address and its word back. -/
theorem Trace.heading?_line (k w : Nat) (text : String) :
    heading? (Numeral.hex 3 k ++ ": " ++ Numeral.hex 4 w ++ "  " ++ text) =
      some ((k : Int), (w : Int)) := by
  have hchars : (Numeral.hex 3 k ++ ": " ++ Numeral.hex 4 w ++ "  " ++ text).toList =
      (Numeral.hex 3 k).toList ++ ':' :: ' ' :: ((Numeral.hex 4 w).toList ++
        ' ' :: ' ' :: text.toList) := by
    simp
  have hcolon : ∀ c ∈ (Numeral.hex 3 k).toList, decide (c ≠ ':') = true := fun c hc =>
    decide_eq_true (Numeral.ne_of_mem_hex hc).1
  have hblank : ∀ c ∈ (Numeral.hex 4 w).toList, decide (c ≠ ' ') = true := fun c hc =>
    decide_eq_true (Numeral.ne_of_mem_hex hc).2
  have hread (width n : Nat) : Numeral.reading 16 (Numeral.hex width n).toList = n :=
    Numeral.reading_signed (by decide) (by decide) width n
  -- the first numeral ends at the first colon, and the second at the first blank behind it
  have haddress (rest : List Char) :
      ((Numeral.hex 3 k).toList ++ ':' :: rest).takeWhile (· ≠ ':') = (Numeral.hex 3 k).toList := by
    rw [List.takeWhile_append_of_pos hcolon]
    exact List.append_nil _
  have hrest (rest : List Char) :
      ((Numeral.hex 3 k).toList ++ ':' :: rest).dropWhile (· ≠ ':') = ':' :: rest := by
    rw [List.dropWhile_append_of_pos hcolon]
    rfl
  have hword (rest : List Char) :
      ((Numeral.hex 4 w).toList ++ ' ' :: rest).takeWhile (· ≠ ' ') = (Numeral.hex 4 w).toList := by
    rw [List.takeWhile_append_of_pos hblank]
    exact List.append_nil _
  simp only [heading?, hchars, haddress, hrest, hword, hread]

/-- The remark on an instruction without effect has no address. -/
theorem Trace.heading?_remark : heading? "SYS call ignored (0nnn)" = none := by decide

/-- The address and the word of the instruction that a step hands on to be executed, as its outcome
tells: an instruction that is given back, or one that the stack has refused. -/
def Reply.dispatched? (pc : Int) (r : Reply Fault (Option Instruction)) : Option (Int × Int) :=
  match r.result with
  | .ok (some i) => some (pc, i.word)
  | .ok none => none
  | .error f =>
    if f.kind = .stackOverflow ∨ f.kind = .stackUnderflow then f.word.map (f.pc, ·) else none

/-- The address and the word of the instruction that a move hands on, if it is a step. -/
def Move.dispatched? (env : Surroundings) (m : Move) : Option (Int × Int) :=
  match m.call with
  | .step => (m.before.step env.random env.tracing).dispatched? m.before.pc
  | _ => none

namespace State

/-- The stack refuses an instruction because it is full or because it is empty. -/
theorem kind_of_stackFault? {kind : Fault.Kind} (h : s.stackFault? i = some kind) :
    kind = .stackOverflow ∨ kind = .stackUnderflow := by
  unfold stackFault? at h
  split at h
  · split at h <;> simp_all
  · split at h <;> simp_all
  · simp at h

/-- The line of an instruction gives its address and its word back, and the remark on those that
have no effect gives nothing. -/
theorem headings_traceOf {w : Nat} (hf : s.fetch? = some w)
    (hd : Instruction.lookUp Instruction.table w = some i) :
    (s.traceOf true i).filterMap Trace.heading? = [(s.pc, (w : Int))] := by
  obtain ⟨⟨hpc, -⟩, -⟩ := fetch?_eq_some_iff.1 hf
  obtain ⟨k, hk⟩ := Int.eq_ofNat_of_zero_le hpc
  have hi : i.word = w := Instruction.word_of_lookUp hd
  have hline : Trace.heading? (s.traceLine i) = some (s.pc, (w : Int)) := by
    rw [traceLine, hi, hk]
    exact Trace.heading?_line k w i.mnemonic
  have hlog (t : String) : Trace.log true [t] = [t] := by simp [Trace.log]
  unfold traceOf
  rw [hlog, hlog, List.filterMap_append, List.filterMap_cons_some hline, List.filterMap_nil]
  split
  · rw [List.filterMap_cons_none Trace.heading?_remark]
    rfl
  · rfl

/-- What is read off the lines of a step is what its outcome tells, traced or not. -/
theorem headings_narration (random : Nat → Nat) (tracing : Bool) (s : State) :
    s.narration.filterMap Trace.heading? =
      ((s.step random tracing).dispatched? s.pc).toList := by
  have hr := step_reply random tracing s
  generalize s.step random tracing = r at hr ⊢
  cases hr with
  | wait hw =>
    rw [narration_waiting hw]
    rfl
  | outside hw hf =>
    rw [narration_outside hf]
    rfl
  | unknown hw hf hd =>
    rw [narration_of_fetch? hw hf, hd]
    rfl
  | stack hw hf hd hk =>
    rw [narration_of_fetch? hw hf, hd]
    simp only [headings_traceOf hf hd, Reply.dispatched?, if_pos (kind_of_stackFault? hk)]
    rfl
  | execute hw hf hd hk =>
    rw [narration_of_fetch? hw hf, hd]
    simp only [headings_traceOf hf hd, Reply.dispatched?, Instruction.word_of_lookUp hd]
    rfl

end State

/-- What is read off the lines of a move is what its outcome tells. -/
theorem Move.headings_narration (env : Surroundings) (m : Move) :
    (if m.call = .step then m.before.narration else []).filterMap Trace.heading? =
      (m.dispatched? env).toList := by
  by_cases hstep : m.call = .step
  · rw [if_pos hstep, dispatched?, hstep]
    exact m.before.headings_narration env.random env.tracing
  · rw [if_neg hstep]
    unfold dispatched?
    split
    next hcall => exact absurd hcall hstep
    next => rfl

namespace State

/-- **A trace tells just what has been handed on to be executed**, and tracing changes nothing else.
With tracing off every call has the same result, leaves the same state and prints nothing. With
tracing on what is printed are the lines that each step has to tell, in order, and the addresses and
words that are read off them are those of the instructions that a machine which is not traced gives
back or has refused by the stack. -/
theorem trace_tells_dispatched (env : Surroundings) (s : State) (history : List Operation)
    (hfiles : ∀ path, .loadFile path ∉ history) :
    let traced := env.traced true
    let silent := env.traced false
    let trace := (s.replies traced history).flatMap (·.printed)
    s.replies silent history = (s.replies traced history).map Reply.muted ∧
      trace = (s.moves traced history).flatMap (fun m => (m.reply traced).printed) ∧
      (∀ m ∈ s.moves traced history,
        (m.reply traced).printed = if m.call = .step then m.before.narration else []) ∧
      trace.filterMap Trace.heading? =
        (s.moves silent history).filterMap (·.dispatched? silent) := by
  intro traced silent trace
  have hlines : ∀ m ∈ s.moves traced history,
      (m.reply traced).printed = if m.call = .step then m.before.narration else [] := by
    intro m hm
    refine Move.printed_reply (Move.call_ne_run hm) fun path hcall => ?_
    rcases Move.call_cases hm with hstep | ⟨hmem, -⟩
    · rw [hstep] at hcall
      cases hcall
    · exact hfiles path (hcall ▸ hmem)
  have htrace : trace = (s.moves traced history).flatMap fun m => (m.reply traced).printed :=
    printed_replies traced history s
  have hmoves : s.moves silent history = s.moves traced history := moves_traced traced history s
  refine ⟨replies_muted traced history s, htrace, hlines, ?_⟩
  rw [htrace, hmoves, List.flatMap_congr hlines, List.filterMap_flatMap,
    List.filterMap_eq_flatMap_toList]
  exact List.flatMap_congr fun m _ => m.headings_narration silent

/-- Two instructions, one of them without effect, and a return that the stack refuses: the trace
tells all three, and without it nothing is printed. -/
theorem trace_tells_dispatched_refused :
    let env : Surroundings := ⟨fun _ => 0, false, fun _ => .ok []⟩
    let s := ((fresh false).load [0x61, 0x05, 0x01, 0x23, 0x00, 0xEE]).state
    let history : List Operation := [.step, .run 5]
    ((s.replies (env.traced true) history).flatMap (·.printed)).filterMap Trace.heading? =
        [(0x200, 0x6105), (0x202, 0x0123), (0x204, 0x00EE)] ∧
      (s.replies (env.traced false) history).flatMap (·.printed) = [] := by
  intro env s history
  obtain ⟨hsilent, -, -, hread⟩ := trace_tells_dispatched env s history (by simp [history])
  have hdispatched : (s.moves (env.traced false) history).filterMap
      (·.dispatched? (env.traced false)) =
        [(0x200, 0x6105), (0x202, 0x0123), (0x204, 0x00EE)] := by
    decide +kernel
  refine ⟨hread.trans hdispatched, ?_⟩
  rw [hsilent, List.flatMap_map]
  exact List.flatMap_eq_nil_iff.2 fun r _ => rfl

end State

end Chip8Vm
