import Chip8Vm.Text.Numeral
import Chip8Vm.Text.Printable

/-!
# Quoted text

Names are shown between quotes: single ones, or double ones when the name holds a single quote
and no double one. Inside, a backslash and the quote in use are written after a backslash,
line feed, carriage return and tab have letters of their own, and any other character that is
not printable is written by its code point in lower-case hexadecimal with two, four or eight
digits.
-/

namespace Chip8Vm.Text

/-- The single quote. -/
def singleQuote : Char := Char.ofNat 39

/-- The double quote. -/
def doubleQuote : Char := Char.ofNat 34

/-- The quote put around a text. -/
def quoteFor (cs : List Char) : Char :=
  if cs.contains singleQuote && !cs.contains doubleQuote then doubleQuote else singleQuote

/-- `n` in lower-case hexadecimal of at least `width` digits. -/
def lowerHex (width n : Nat) : List Char := (Numeral.natural 16 width n).toList.map Char.toLower

/-- The code point of a character that is not shown, after a letter for the number of digits. -/
def escapeCode (n : Nat) : List Char :=
  if n < 0x100 then '\\' :: 'x' :: lowerHex 2 n
  else if n < 0x10000 then '\\' :: 'u' :: lowerHex 4 n
  else '\\' :: 'U' :: lowerHex 8 n

/-- One character inside quotes `q`. -/
def escape (q c : Char) : List Char :=
  if c = q || c = '\\' then ['\\', c]
  else if c = '\n' then ['\\', 'n']
  else if c = '\r' then ['\\', 'r']
  else if c = '\t' then ['\\', 't']
  else if isPrintable c then [c]
  else escapeCode c.toNat

/-- The text between quotes. -/
def quote (s : String) : String :=
  let q := quoteFor s.toList
  String.ofList (q :: s.toList.flatMap (escape q) ++ [q])

end Chip8Vm.Text
