import Partials.Text

/-!
# Hexadecimal digits

Digits of base sixteen, and characters written by their code.
-/

namespace Partials.Hex

/-- The digit of value `n < 16`, in lower case. -/
def digit (n : Nat) : Char := if n < 10 then Char.ofNat (48 + n) else Char.ofNat (87 + n)

/-- The digit of value `n < 16`, in upper case. -/
def upperDigit (n : Nat) : Char := if n < 10 then Char.ofNat (48 + n) else Char.ofNat (55 + n)

/-- The last `count` digits of `n`, in upper case. -/
def upperDigits (n : Nat) : (count : Nat) → Text
  | 0 => []
  | count + 1 => upperDigit (n / Nat.pow 16 count % 16) :: upperDigits n count

/-- The value of a digit in either case. -/
def value? (c : Char) : Option Nat :=
  if c.isDigit then some (c.toNat - 48)
  else if 'a' ≤ c ∧ c ≤ 'f' then some (c.toNat - 87)
  else if 'A' ≤ c ∧ c ≤ 'F' then some (c.toNat - 55)
  else none

/-- The value of digits. -/
def ofDigits? (digits : Text) : Option Nat := do
  let values ← digits.mapM value?
  return values.foldl (fun n v => n * 16 + v) 0

/-- The character whose code the digits are. -/
def char? (digits : Text) : Option Char := do
  let code ← ofDigits? digits
  if code.isValidChar then some (Char.ofNat code) else none

theorem value?_digit {n : Nat} (h : n < 16) : value? (digit n) = some n := by
  revert n
  decide

end Partials.Hex
