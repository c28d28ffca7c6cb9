import Partials.Number

/-!
# Numerals

A decimal numeral as it is written: sign, digits, the digits behind a point, and an exponent. JSON
has one syntax for it; what number it stands for is the rule of `Numeral.value?`.
-/

namespace Partials

/-- A decimal numeral. -/
structure Numeral where
  negative : Bool
  whole : Text
  /-- The digits behind the point, if there is one. -/
  fraction : Option Text
  /-- The sign and the digits of the exponent, if there is one. -/
  exponent : Option (Bool × Text)
  deriving DecidableEq, Repr

namespace Numeral

/-- The value of a digit. -/
def digitValue (c : Char) : Nat := c.toNat - 48

/-- The value of decimal digits. -/
def ofDigits (digits : Text) : Nat := digits.foldl (fun n c => n * 10 + digitValue c) 0

/-- Digits, at least one, and the text behind them. -/
def digits? (t : Text) : Option (Text × Text) :=
  match t.takeWhile Char.isDigit with
  | [] => none
  | c :: cs => some (c :: cs, t.dropWhile Char.isDigit)

/-- Digits without a leading zero. -/
def whole? (t : Text) : Option (Text × Text) :=
  match digits? t with
  | some ('0' :: _ :: _, _) => none
  | other => other

def fraction? : Text → Option (Option Text × Text)
  | '.' :: t => (digits? t).map fun (digits, rest) => (some digits, rest)
  | t => some (none, t)

/-- The sign and the digits of an exponent. -/
def signed? : Text → Option ((Bool × Text) × Text)
  | '+' :: t => (digits? t).map fun (digits, rest) => ((false, digits), rest)
  | '-' :: t => (digits? t).map fun (digits, rest) => ((true, digits), rest)
  | t => (digits? t).map fun (digits, rest) => ((false, digits), rest)

def exponent? : Text → Option (Option (Bool × Text) × Text)
  | 'e' :: t => (signed? t).map fun (exponent, rest) => (some exponent, rest)
  | 'E' :: t => (signed? t).map fun (exponent, rest) => (some exponent, rest)
  | t => some (none, t)

/-- The numeral at the start of a text, and the text behind it. -/
def ofText? (t : Text) : Option (Numeral × Text) := do
  let (negative, t) := match t with
    | '-' :: t => (true, t)
    | t => (false, t)
  let (whole, t) ← whole? t
  let (fraction, t) ← fraction? t
  let (exponent, t) ← exponent? t
  return (⟨negative, whole, fraction, exponent⟩, t)

/-- The significand that the leading digits make while it fits into 64 bits, and the digits behind
them. -/
def gather : (significand : Nat) → Text → Nat × Text
  | significand, [] => (significand, [])
  | significand, c :: cs =>
    let next := significand * 10 + digitValue c
    if next < Nat.pow 2 64 then gather next cs else (significand, c :: cs)

/-- The greatest exponent whose power of ten is within the format. -/
def largestPower : Nat := 308

/-- The number nearest to `10 ^ exponent`, for exponents up to `largestPower`. -/
def power (exponent : Nat) : Binary64 :=
  (Binary64.ofNat? (Nat.pow 10 exponent)).getD (Binary64.zero false)

/-- `x` over a power of ten; over more than one where the power is beyond the format. Two divisions
by the greatest power take any significand of 64 bits to zero. -/
def scaleDown : (steps : Nat) → Binary64 → (exponent : Nat) → Option Binary64
  | 0, x, _ => some (Binary64.zero x.negative)
  | steps + 1, x, exponent =>
    if exponent ≤ largestPower then x.div? (power exponent)
    else if x.isZero then some x
    else do scaleDown steps (← x.div? (power largestPower)) (exponent - largestPower)

/-- `x` times a power of ten, each operation rounded; none beyond the largest finite number. -/
def scale (x : Binary64) (exponent : Int) : Option Binary64 :=
  if exponent < 0 then scaleDown 4 x (-exponent).toNat
  else if exponent ≤ largestPower then x.mul? (power exponent.toNat)
  else if x.isZero then some x
  else none

/-- The greatest exponent that is taken at its value; the numbers of a greater one are zero or
beyond the format, whatever the point adds to it. -/
def largestExponent : Nat := Nat.pow 2 31 - 1

/-- The number of a numeral with point or exponent, or with too many digits for an integer: of its
significand those leading digits count that fit into 64 bits, and a power of ten scales it. -/
def float? (n : Numeral) : Option Binary64 := do
  let (significand, surplus) := gather 0 n.whole
  let fraction := n.fraction.getD []
  let (significand, dropped) := gather significand fraction
  let point : Int := (surplus.length : Int) - (fraction.length - dropped.length)
  let exponent := n.exponent.getD (false, [])
  let magnitude := ofDigits exponent.2
  let x ← Binary64.ofNat? significand
  let y ←
    if largestExponent < magnitude then
      if !x.isZero && !exponent.1 then none else some (Binary64.zero false)
    else scale x (if exponent.1 then point - magnitude else point + magnitude)
  return if n.negative then y.neg else y

/-- The integer of a numeral without point and exponent, if it fits into 64 bits with or without
sign. A negative zero is no integer. -/
def integer? (n : Numeral) : Option Int :=
  let magnitude := ofDigits n.whole
  if n.fraction.isSome || n.exponent.isSome then none
  else if n.negative then
    if 0 < magnitude ∧ magnitude ≤ Nat.pow 2 63 then some (-magnitude) else none
  else if magnitude < Nat.pow 2 64 then some magnitude
  else none

/-- The number that the numeral stands for; none for one beyond the format. -/
def value? (n : Numeral) : Option Number :=
  match n.integer? with
  | some i => some (.integer i)
  | none => n.float?.map .float

end Numeral

end Partials
