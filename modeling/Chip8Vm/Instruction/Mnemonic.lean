import Chip8Vm.Instruction.Basic
import Chip8Vm.Text.Numeral

/-!
# Mnemonics

One line of assembly for each instruction. Only the operands that the operation uses are
shown, so the two shifts, which ignore `y`, are the only operations whose text does not
determine the low word.
-/

namespace Chip8Vm

/-- `V` and the register's hexadecimal digit. -/
def Reg.name (r : Reg) : String := "V" ++ Numeral.hex 1 r.val

namespace Instruction

/-- The address operand. -/
def addressText (i : Instruction) : String := "0x" ++ Numeral.hex 3 i.nnn

/-- A name and the first register. -/
def oneRegister (name : String) (i : Instruction) : String := name ++ " " ++ i.x.name

/-- A name, the first register and the byte operand. -/
def registerByte (name : String) (i : Instruction) : String :=
  oneRegister name i ++ ", 0x" ++ Numeral.hex 2 i.kk

/-- A name and both registers. -/
def twoRegisters (name : String) (i : Instruction) : String :=
  oneRegister name i ++ ", " ++ i.y.name

/-- The assembly text of an instruction. -/
def mnemonic (i : Instruction) : String :=
  match i.op with
  | .clearDisplay => "CLS"
  | .ret => "RET"
  | .system => "SYS " ++ addressText i
  | .jump => "JP " ++ addressText i
  | .call => "CALL " ++ addressText i
  | .skipEqualByte => registerByte "SE" i
  | .skipUnequalByte => registerByte "SNE" i
  | .skipEqual => twoRegisters "SE" i
  | .setByte => registerByte "LD" i
  | .addByte => registerByte "ADD" i
  | .copy => twoRegisters "LD" i
  | .or => twoRegisters "OR" i
  | .and => twoRegisters "AND" i
  | .xor => twoRegisters "XOR" i
  | .add => twoRegisters "ADD" i
  | .subtract => twoRegisters "SUB" i
  | .shiftRight => oneRegister "SHR" i
  | .subtractFrom => twoRegisters "SUBN" i
  | .shiftLeft => oneRegister "SHL" i
  | .skipUnequal => twoRegisters "SNE" i
  | .setIndex => "LD I, " ++ addressText i
  | .jumpOffset => "JP V0, " ++ addressText i
  | .random => registerByte "RND" i
  | .draw => twoRegisters "DRW" i ++ ", " ++ Numeral.decimal i.n
  | .skipPressed => oneRegister "SKP" i
  | .skipReleased => oneRegister "SKNP" i
  | .readDelay => oneRegister "LD" i ++ ", DT"
  | .awaitKey => oneRegister "LD" i ++ ", K"
  | .setDelay => "LD DT, " ++ i.x.name
  | .setSound => "LD ST, " ++ i.x.name
  | .addIndex => "ADD I, " ++ i.x.name
  | .pointGlyph => "LD F, " ++ i.x.name
  | .storeDecimal => "LD B, " ++ i.x.name
  | .storeRegisters => "LD [I], " ++ i.x.name
  | .loadRegisters => oneRegister "LD" i ++ ", [I]"

end Instruction

end Chip8Vm
