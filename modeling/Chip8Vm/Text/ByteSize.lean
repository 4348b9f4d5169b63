import Chip8Vm.Text.Numeral

/-!
# Sizes in bytes

A number of bytes is written to three digits in the largest unit that it fills, where units grow
by the factor 1024. `roundedQuotient_near` says that what is written is at most half of a last
digit away from the size.
-/

namespace Chip8Vm.ByteSize

/-- `a / b` to the nearest whole number; halfway, to the even one. -/
def roundedQuotient (a b : Nat) : Nat :=
  if b < 2 * (a % b) ∨ (b = 2 * (a % b) ∧ a / b % 2 = 1) then a / b + 1 else a / b

theorem roundedQuotient_near (a : Nat) {b : Nat} (hb : 0 < b) :
    2 * a ≤ 2 * (b * roundedQuotient a b) + b ∧ 2 * (b * roundedQuotient a b) ≤ 2 * a + b := by
  have h := Nat.div_add_mod a b
  have hlt := Nat.mod_lt a hb
  rw [roundedQuotient]
  split
  · rw [Nat.mul_add]
    omega
  · have : 2 * (a % b) ≤ b := by omega
    omega

/-- `a / b` to three digits, or to all digits before the point where there are more; the point is
always written. -/
def threeDigits (a b : Nat) : String :=
  let hundredths := roundedQuotient (a * 100) b
  let tenths := roundedQuotient (a * 10) b
  if hundredths < 1000 then
    Numeral.decimal (hundredths / 100 : Nat) ++ "." ++ Numeral.natural 10 2 (hundredths % 100)
  else if tenths < 1000 then
    Numeral.decimal (tenths / 10 : Nat) ++ "." ++ Numeral.decimal (tenths % 10 : Nat)
  else Numeral.decimal (roundedQuotient a b) ++ "."

/-- The names of the units. -/
def units : List String := ["bytes", "KiB", "MiB", "GiB", "TiB", "PiB", "EiB"]

/-- The bytes of the unit in a given place of `units`. -/
def unitBytes (unit : Nat) : Nat := 1 <<< (10 * unit)

/-- A size in the largest unit that it fills, where a size that rounds to 1024 fills the next unit.
Single bytes are written without a point. -/
def text (bytes : Nat) : String :=
  let filled := bytes.log2 / 10
  let unit := if roundedQuotient bytes (unitBytes filled) = 1024 then filled + 1 else filled
  let unit := min unit (units.length - 1)
  let amount := if unit = 0 then Numeral.decimal bytes else threeDigits bytes (unitBytes unit)
  amount ++ " " ++ units.getD unit ""

end Chip8Vm.ByteSize
