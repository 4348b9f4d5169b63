import Chip8Vm.Text.Numeral

/-!
# Faults

A fault is what stops the machine: its kind, the word that was being executed (none when there
was no word to fetch), the address it was fetched from, and a report of the machine's state,
empty when nothing was reported.
-/

namespace Chip8Vm

/-- Why the machine cannot go on. -/
inductive Fault.Kind
  /-- A fault with no more precise cause. -/
  | machine
  | unknownOpcode
  | stackOverflow
  | stackUnderflow
  | programCounter
deriving DecidableEq, Repr

structure Fault where
  kind : Fault.Kind
  word : Option Int
  pc : Int
  report : String
deriving DecidableEq, Repr

namespace Fault

/-- The words that name a kind of fault. -/
def Kind.reason : Kind → String
  | .machine => "Machine fault"
  | .unknownOpcode => "Unknown opcode"
  | .stackOverflow => "Stack overflow on CALL"
  | .stackUnderflow => "Stack underflow on RET"
  | .programCounter => "PC out of bounds"

/-- The first line of a fault's text: the reason, the word if there is one, and the address. -/
def headline (f : Fault) : String :=
  match f.word with
  | none => f.kind.reason ++ ": pc 0x" ++ Numeral.hex 3 f.pc
  | some w =>
    f.kind.reason ++ ": opcode " ++ Numeral.hex 4 w ++ " at pc 0x" ++ Numeral.hex 3 f.pc

/-- The headline, and the report below it if there is one. -/
def message (f : Fault) : String :=
  if f.report = "" then f.headline else f.headline ++ "\n" ++ f.report

end Fault

end Chip8Vm
