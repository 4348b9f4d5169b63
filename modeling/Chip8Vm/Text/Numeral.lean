/-!
# Numerals with a least width

Addresses, words and counts are written in base sixteen (upper case) or ten. A width asks for
*at least* so many characters: shorter numerals are filled with zeros on the left, longer ones
keep all their digits, and a minus sign takes one of the places. `value_digits` says that the
digits of a number give the number back, so no two numbers share a numeral of one base.
-/

namespace Chip8Vm.Numeral

/-- Puts the digits of `n` in front of digits that are already there. -/
def digitsOnto (b n : Nat) (ds : List Nat) : List Nat :=
  if n < b ∨ b < 2 then n :: ds else digitsOnto b (n / b) (n % b :: ds)
termination_by n
decreasing_by exact Nat.div_lt_self (by omega) (by omega)

/-- The digits of `n` in base `b`, most significant first; zero has one digit. -/
def digits (b n : Nat) : List Nat := digitsOnto b n []

theorem digitsOnto_append (b n : Nat) (ds es : List Nat) :
    digitsOnto b n (ds ++ es) = digitsOnto b n ds ++ es := by
  fun_induction digitsOnto b n ds with
  | case1 n ds h => rw [digitsOnto, if_pos h]; rfl
  | case2 n ds h ih => rw [digitsOnto, if_neg h]; exact ih

theorem digits_of_lt {b n : Nat} (h : n < b) : digits b n = [n] := by
  rw [digits, digitsOnto, if_pos (.inl h)]

/-- A number that is not below the base ends in its remainder. -/
theorem digits_of_le {b n : Nat} (hb : 2 ≤ b) (h : b ≤ n) :
    digits b n = digits b (n / b) ++ [n % b] := by
  rw [digits, digitsOnto, if_neg (by omega)]
  exact digitsOnto_append b (n / b) [] [n % b]

/-- The number that a list of digits stands for. -/
def value (b : Nat) (ds : List Nat) : Nat :=
  ds.foldl (fun acc d => acc * b + d) 0

theorem value_append_singleton (b : Nat) (ds : List Nat) (d : Nat) :
    value b (ds ++ [d]) = value b ds * b + d := by
  simp [value, List.foldl_append]

theorem value_digits {b : Nat} (hb : 2 ≤ b) (n : Nat) : value b (digits b n) = n := by
  induction n using Nat.strongRecOn with
  | ind n ih =>
    by_cases h : n < b
    · simp [digits_of_lt h, value]
    · rw [digits_of_le hb (by omega), value_append_singleton,
        ih _ (Nat.div_lt_self (by omega) (by omega)), Nat.div_add_mod']

theorem digits_ne_nil {b : Nat} (hb : 2 ≤ b) (n : Nat) : digits b n ≠ [] := by
  by_cases h : n < b
  · simp [digits_of_lt h]
  · simp [digits_of_le hb (Nat.le_of_not_lt h)]

/-- Every digit is below the base. -/
theorem lt_of_mem_digits {b n d : Nat} (hb : 2 ≤ b) (hd : d ∈ digits b n) : d < b := by
  induction n using Nat.strongRecOn with
  | ind n ih =>
    by_cases h : n < b
    · rw [digits_of_lt h, List.mem_singleton] at hd
      exact hd ▸ h
    · rw [digits_of_le hb (by omega)] at hd
      rcases List.mem_append.1 hd with hd | hd
      · exact ih _ (Nat.div_lt_self (by omega) (by omega)) hd
      · rw [List.mem_singleton.1 hd]
        exact Nat.mod_lt _ (by omega)

/-- The character of a digit below sixteen. -/
def digitChar (d : Nat) : Char :=
  if d < 10 then Char.ofNat (48 + d) else Char.ofNat (55 + d)

/-- `n` in base `b`, filled with zeros on the left to at least `width` characters. -/
def natural (b width n : Nat) : String :=
  let cs := (digits b n).map digitChar
  String.ofList (List.replicate (width - cs.length) '0' ++ cs)

/-- `n` in base `b`, where a minus sign counts as one of the `width` characters. -/
def signed (b width : Nat) (n : Int) : String :=
  if n < 0 then "-" ++ natural b (width - 1) n.natAbs else natural b width n.natAbs

/-- Upper-case hexadecimal of at least `width` characters. -/
def hex (width : Nat) (n : Int) : String := signed 16 width n

/-- The plain decimal numeral. -/
def decimal (n : Int) : String := signed 10 0 n

end Chip8Vm.Numeral
