import Chip8Vm.Proofs.Invariant

/-!
# What loading leaves in memory

A program that fits replaces as many bytes from `0x200` on as it has, and leaves memory in front of it
and behind it as it was (`toList_load`); one that does not fit is refused. A file is loaded as its
content is, and one that cannot be read is refused like a program that does not fit
(`loadFile_eq_load`, `loadFile_unreadable`).

So each load either gives a byte a new value or leaves it alone, which `byte_perform_load` says in one
equation, and after any number of loads the byte is as the last one has left it that gave it a value
(`State.after_last_setting`). `load_copies_program` is all of this.
-/

namespace Chip8Vm

namespace State

/-- A program as it is, if it fits. -/
def fitting? (program : Bytes) : Option Bytes :=
  if program.length ≤ programRoom then some program else none

/-- The state with a program put into memory, if there is one. -/
def holding (s : State) : Option Bytes → State
  | some program =>
    { s with memory := s.memory.write Memory.programStart (program.map UInt8.toNat) }
  | none => s

end State

namespace Operation

/-- Whether an operation loads a program, from a file or not. -/
def isLoad : Operation → Bool
  | .load _ | .loadFile _ => true
  | _ => false

/-- The program that an operation loads, if it loads one and does not fail. -/
def loaded? (env : Surroundings) : Operation → Option Bytes
  | .load program => State.fitting? program
  | .loadFile path => (env.read path).toOption.bind State.fitting?
  | _ => none

/-- What an operation sets a byte of memory to by loading, if its program gets that far. -/
def byteLoaded? (env : Surroundings) (a : Nat) (op : Operation) : Option Nat :=
  ((op.loaded? env).bind (·[a - Memory.programStart]?)).map UInt8.toNat

end Operation

namespace State

variable {env : Surroundings} {s : State}

theorem length_of_fitting? {program program' : Bytes} (h : fitting? program = some program') :
    program'.length ≤ programRoom := by
  unfold fitting? at h
  split at h
  · next hle => exact Option.some.inj h ▸ hle
  · cases h

theorem length_of_loaded? {op : Operation} {program : Bytes} (h : op.loaded? env = some program) :
    program.length ≤ programRoom := by
  cases op with
  | load => exact length_of_fitting? h
  | loadFile path =>
    obtain ⟨_, -, hfits⟩ := Option.bind_eq_some_iff.1 h
    exact length_of_fitting? hfits
  | _ => cases h

theorem load_eq_ok {program : Bytes} (h : program.length ≤ programRoom) (s : State) :
    s.load program = .ok program.length (s.holding (some program)) := if_pos h

theorem load_eq_refuse {program : Bytes} (h : programRoom < program.length) (s : State) :
    s.load program = .refuse ⟨program.length, programRoom⟩ s := if_neg (Nat.not_le.2 h)

theorem state_load_eq (program : Bytes) (s : State) :
    (s.load program).state = s.holding (fitting? program) := by
  unfold fitting?
  split
  · next h =>
    rw [load_eq_ok h]
    rfl
  · next h =>
    rw [load_eq_refuse (Nat.not_le.1 h)]
    rfl

/-- A file that can be read is loaded as its content is. -/
theorem loadFile_eq_load {read : String → Except ReadError Bytes} {path : String} {program : Bytes}
    (tracing : Bool) (hread : read path = .ok program) (s : State) :
    (s.loadFile read tracing path).result = ((s.load program).relabel .tooLarge id).result ∧
      (s.loadFile read tracing path).state = (s.load program).state := by
  rw [loadFile, hread]
  dsimp only
  rw [Reply.result_after, Reply.result_note, Reply.state_after, Reply.state_note,
    Reply.state_relabel]
  exact ⟨rfl, rfl⟩

theorem loadFile_unreadable {read : String → Except ReadError Bytes} {path : String} {e : ReadError}
    (tracing : Bool) (hread : read path = .error e) (s : State) :
    (s.loadFile read tracing path).result = .error (.unreadable e) ∧
      (s.loadFile read tracing path).state = s := by
  rw [loadFile, hread]
  exact ⟨rfl, rfl⟩

/-- A load leaves its program in memory, if it does not fail. -/
theorem state_perform_load {op : Operation} (hop : op.isLoad = true) (s : State) :
    (op.perform env s).state = s.holding (op.loaded? env) := by
  cases op with
  | load program => exact state_load_eq program s
  | loadFile path =>
    show (s.loadFile env.read env.tracing path).state =
      s.holding ((env.read path).toOption.bind fitting?)
    cases hread : env.read path with
    | ok program =>
      exact (loadFile_eq_load env.tracing hread s).2.trans (state_load_eq program s)
    | error e => exact (loadFile_unreadable env.tracing hread s).2
  | _ => cases hop

/-- A byte is that of the program, if there is one that gets that far. -/
theorem byte_holding {program? : Option Bytes} (hfits : ∀ p, program? = some p → p.length ≤ programRoom)
    {a : Nat} (ha : a < 4096) (s : State) :
    (s.holding program?).memory.byte a =
      if Memory.programStart ≤ a then
        ((program?.bind (·[a - Memory.programStart]?)).map UInt8.toNat).getD (s.memory.byte a)
      else s.memory.byte a := by
  cases program? with
  | none => exact (ite_self _).symm
  | some program =>
    refine (Memory.byte_write s.memory (end_le_of_fits (hfits program rfl)) ha).trans ?_
    rw [List.getElem?_map, Option.bind_some]

/-- A load sets a byte to that of its program, if it does not fail and the program gets that far. -/
theorem byte_perform_load {op : Operation} (hop : op.isLoad = true) {a : Nat} (ha : a < 4096)
    (s : State) :
    (op.perform env s).state.memory.byte a =
      if Memory.programStart ≤ a then (op.byteLoaded? env a).getD (s.memory.byte a)
      else s.memory.byte a := by
  rw [state_perform_load hop, byte_holding (fun _ => length_of_loaded?) ha, Operation.byteLoaded?]

/-- Loading touches nothing but memory. -/
theorem holding_eq (program? : Option Bytes) (s : State) :
    s.holding program? = { s with memory := (s.holding program?).memory } := by
  cases program? with
  | none => rfl
  | some program => rfl

/-- The bytes in front of a program that fits, and behind it, stay as they were. -/
theorem byte_load {program : Bytes} (hfits : program.length ≤ programRoom) {a : Nat} (ha : a < 4096)
    (s : State) :
    (s.load program).state.memory.byte a =
      if Memory.programStart ≤ a then
        (program[a - Memory.programStart]?.map UInt8.toNat).getD (s.memory.byte a)
      else s.memory.byte a := by
  rw [load_eq_ok hfits]
  refine byte_holding (fun p hp => ?_) ha s
  cases hp
  exact hfits

/-- **A load copies its program into memory and changes nothing else**, or it is refused and changes
nothing at all. After any loads each byte is as the last of them has left it whose program got that
far; and loading a file that can be read is loading its content. -/
theorem load_copies_program (env : Surroundings) (s : State) :
    (∀ program : Bytes, program.length ≤ 3584 →
      let t := (s.load program).state
      (s.load program).result = .ok program.length ∧ t = { s with memory := t.memory } ∧
      t.memory.toList = s.memory.toList.take 0x200 ++ program.map UInt8.toNat ++
        s.memory.toList.drop (0x200 + program.length) ∧
      (∀ i (hi : i < program.length), t.memory.byte (0x200 + i) = program[i].toNat) ∧
      ∀ a < 4096, a < 0x200 ∨ 0x200 + program.length ≤ a → t.memory.byte a = s.memory.byte a) ∧
    (∀ program : Bytes, 3584 < program.length →
      s.load program = .refuse ⟨program.length, 3584⟩ s) ∧
    (∀ history : List Operation, (∀ op ∈ history, op.isLoad = true) →
      let t := s.after env history
      t = { s with memory := t.memory } ∧
      (∀ a < 0x200, t.memory.byte a = s.memory.byte a) ∧
      ∀ a, 0x200 ≤ a → a < 4096 → t.memory.byte a =
        (history.filterMap (Operation.byteLoaded? env a)).getLast?.getD (s.memory.byte a)) ∧
    ∀ path,
      (∀ program, env.read path = .ok program →
        (s.loadFile env.read env.tracing path).result =
            ((s.load program).relabel .tooLarge id).result ∧
          (s.loadFile env.read env.tracing path).state = (s.load program).state) ∧
      ∀ e, env.read path = .error e →
        (s.loadFile env.read env.tracing path).result = .error (.unreadable e) ∧
          (s.loadFile env.read env.tracing path).state = s := by
  refine ⟨?_, fun program hlong => load_eq_refuse hlong s, ?_, fun path => ⟨?_, ?_⟩⟩
  · intro program hfits t
    have ht : t = s.holding (some program) := congrArg Reply.state (load_eq_ok hfits s)
    have hresult : (s.load program).result = .ok program.length :=
      congrArg Reply.result (load_eq_ok hfits s)
    have hframe : t = { s with memory := t.memory } := ht ▸ holding_eq (some program) s
    refine ⟨hresult, hframe, toList_load hfits s, ?_, ?_⟩
    · intro i hi
      have hstart : Memory.programStart ≤ 0x200 + i := Nat.le_add_right 0x200 i
      refine (byte_load hfits (by omega) s).trans ?_
      rw [if_pos hstart]
      simp only [Memory.programStart, Nat.add_sub_cancel_left, List.getElem?_eq_getElem hi,
        Option.map_some, Option.getD_some]
    · intro a ha hout
      refine (byte_load hfits ha s).trans ?_
      split
      · next hlow =>
        have hbehind : program.length ≤ a - Memory.programStart := by
          simp only [Memory.programStart] at *
          omega
        rw [List.getElem?_eq_none hbehind, Option.map_none, Option.getD_none]
      · rfl
  · intro history hloads t
    refine ⟨?_, fun a ha => ?_, fun a hlow hhigh => ?_⟩
    · refine after_keeps (P := fun u => u = { s with memory := u.memory }) ?_ (s := s) rfl
      intro op hop u hu
      rw [state_perform_load (hloads op hop), holding_eq, hu]
    · refine after_keeps (P := fun u => u.memory.byte a = s.memory.byte a) ?_ (s := s) rfl
      intro op hop u hu
      have hlow : ¬Memory.programStart ≤ a := Nat.not_le.2 ha
      rw [byte_perform_load (hloads op hop) (by omega), if_neg hlow, hu]
    · refine after_last_setting (·.memory.byte a) (fun op hop u => ?_) s
      have hstart : Memory.programStart ≤ a := hlow
      rw [byte_perform_load (hloads op hop) hhigh, if_pos hstart]
  · exact fun program hread => loadFile_eq_load env.tracing hread s
  · exact fun e hread => loadFile_unreadable env.tracing hread s

/-- Three loads succeed, the last two from shorter programs, and between them a program that is one byte
too long and a file that cannot be read do not: each byte is of the last program that got to it. -/
theorem load_copies_program_overlapping :
    let env : Surroundings :=
      ⟨id, false, fun path => if path = "one" then .ok [9] else .error .notPath⟩
    let s := fresh false
    let history : List Operation := [.load [1, 2, 3], .load [4, 5], .load (.replicate 3585 6),
      .loadFile "one", .loadFile "none"]
    let t := s.after env history
    (∀ op ∈ history, op.isLoad = true) ∧ t.memory.byte 0x200 = 9 ∧ t.memory.byte 0x201 = 5 ∧
      t.memory.byte 0x202 = 3 ∧ t.memory.byte 0x203 = s.memory.byte 0x203 := by
  intro env s history t
  have hloads : ∀ op ∈ history, op.isLoad = true := by decide
  obtain ⟨-, -, hhistory, -⟩ := load_copies_program env s
  obtain ⟨-, -, hlast⟩ := hhistory history hloads
  exact ⟨hloads, (hlast 0x200 (by decide) (by decide)).trans (by decide +kernel),
    (hlast 0x201 (by decide) (by decide)).trans (by decide +kernel),
    (hlast 0x202 (by decide) (by decide)).trans (by decide +kernel),
    (hlast 0x203 (by decide) (by decide)).trans (by decide +kernel)⟩

end State

end Chip8Vm
