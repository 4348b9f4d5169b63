import Chip8Vm.Folder
import Chip8Vm.Reply
import Chip8Vm.Trace

/-!
# Loading programs

A program is copied to memory from `0x200` on, all or nothing: one that does not fit is
refused and changes nothing. One that fits replaces as many bytes as it has, and memory is as long
as before (`toList_load`). Loading a file is reading it and loading its content.
-/

namespace Chip8Vm

/-- A program that does not fit. -/
structure TooLarge where
  size : Int
  capacity : Int
deriving DecidableEq, Repr

def TooLarge.message (e : TooLarge) : String :=
  "ROM is " ++ Numeral.decimal e.size ++ " bytes, only " ++ Numeral.decimal e.capacity ++
    " bytes available from 0x200"

/-- Why a program file was not loaded. -/
inductive LoadError
  | tooLarge (e : TooLarge)
  | unreadable (e : ReadError)
deriving DecidableEq, Repr

def LoadError.message : LoadError → String
  | .tooLarge e => e.message
  | .unreadable e => e.message

namespace State

/-- Room for a program. -/
def programRoom : Nat := 4096 - Memory.programStart

/-- Copies a program into memory and gives its size. A program that fits ends within memory, so
that its block does not wrap (`toList_load`). -/
def load (program : Bytes) (s : State) : Reply TooLarge Nat :=
  if program.length ≤ programRoom then
    .ok program.length
      { s with memory := s.memory.write Memory.programStart (program.map UInt8.toNat) }
  else .refuse ⟨program.length, programRoom⟩ s

/-- A program that fits ends within memory. -/
theorem end_le_of_fits {program : Bytes} (h : program.length ≤ programRoom) :
    Memory.programStart + (program.map UInt8.toNat).length ≤ 4096 := by
  rw [List.length_map]
  simp only [programRoom, Memory.programStart] at *
  omega

/-- A program that fits leaves memory in front of it and behind it where it was: nothing wraps round,
and no byte is added or lost. -/
theorem toList_load {program : Bytes} (hfits : program.length ≤ programRoom) (s : State) :
    (s.load program).state.memory.toList =
      s.memory.toList.take Memory.programStart ++ program.map UInt8.toNat ++
        s.memory.toList.drop (Memory.programStart + program.length) := by
  have hlist := Memory.toList_write s.memory (end_le_of_fits hfits)
  rw [List.length_map] at hlist
  rw [load, if_pos hfits]
  exact hlist

/-- Nothing changes but the memory. -/
theorem state_load (program : Bytes) (s : State) :
    ∃ memory, (s.load program).state = { s with memory } := by
  unfold load
  split
  · exact ⟨_, rfl⟩
  · exact ⟨s.memory, rfl⟩

/-- Loads a file and, while tracing, says so before and after. -/
def loadFile (read : String → Except ReadError Bytes) (tracing : Bool) (path : String) (s : State) :
    Reply LoadError Nat :=
  Reply.after (Trace.log tracing ["Loading ROM:", path])
    (match read path with
      | .error e => .refuse (.unreadable e) s
      | .ok program =>
        ((s.load program).relabel .tooLarge id).note fun size =>
          Trace.log tracing ["Read " ++ Numeral.decimal size ++ " bytes of data"])

/-- Nothing changes but the memory. -/
theorem state_loadFile (read : String → Except ReadError Bytes) (tracing : Bool) (path : String)
    (s : State) : ∃ memory, (s.loadFile read tracing path).state = { s with memory } := by
  unfold loadFile
  rw [Reply.state_after]
  cases read path with
  | error e => exact ⟨s.memory, rfl⟩
  | ok program =>
    simp only [Reply.state_note, Reply.state_relabel]
    exact state_load program s

end State

end Chip8Vm
