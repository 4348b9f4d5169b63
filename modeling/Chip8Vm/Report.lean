import Chip8Vm.State
import Chip8Vm.Text.Numeral

/-!
# State reports

The text that a fault carries: program counter, address register, stack pointer, timers,
registers and stack, in six lines. Memory, display and keys are not part of it.
-/

namespace Chip8Vm.State

/-- One register, such as `vA: 0x2F`. -/
private def registerText (i v : Nat) : String :=
  "v" ++ Numeral.hex 1 i ++ ": 0x" ++ Numeral.hex 2 v

/-- One stack entry, such as `stack[3]: 0x20E`. -/
private def stackText (i v : Nat) : String :=
  "stack[" ++ Numeral.decimal i ++ "]: 0x" ++ Numeral.hex 3 v

/-- The lines of the report. -/
def reportLines (s : State) : List String :=
  [ "pc: 0x" ++ Numeral.hex 3 s.pc,
    "i: 0x" ++ Numeral.hex 3 s.index,
    "sp: " ++ Numeral.decimal s.sp,
    "delay: " ++ Numeral.decimal s.delay ++ " sound: " ++ Numeral.decimal s.sound,
    "  ".intercalate (s.registers.toList.mapIdx registerText),
    "  ".intercalate (s.stack.toList.mapIdx stackText) ]

/-- The state as text. -/
def report (s : State) : String := "\n".intercalate s.reportLines

end Chip8Vm.State
