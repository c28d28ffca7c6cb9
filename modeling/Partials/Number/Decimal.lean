import Partials.Number.Binary64
import Partials.Text

/-!
# Decimal text of a binary number

The fewest digits that read back as the same number, and their layout. A point of a decimal grid
reads back as the number if it lies in the interval of values that round to it, and if any point of
a grid does, one of the number's two neighbours on that grid does.
-/

namespace Partials

/-- The digits of a decimal `digits · 10 ^ exponent`. -/
structure Decimal where
  digits : Nat
  exponent : Int
  deriving DecidableEq, Repr

namespace Decimal

/-- A magnitude between the ends of the interval that rounds to a number. The ends and the number
itself have the common denominator `den`. -/
structure Interval where
  low : Nat
  value : Nat
  high : Nat
  den : Nat
  /-- Whether the ends belong to the interval. -/
  closed : Bool

/-- The values that round to the number: half of the way to either neighbour. -/
def Interval.of (x : Binary64) : Interval :=
  let m := x.mantissa
  let below :=
    if m = Nat.pow 2 (Binary64.precision - 1) ∧ Binary64.lowest < x.exponent then 1 else 2
  let e := x.exponent - 2
  let scale := if 0 ≤ e then Nat.pow 2 e.toNat else 1
  let den := if 0 ≤ e then 1 else Nat.pow 2 (-e).toNat
  ⟨(4 * m - below) * scale, 4 * m * scale, (4 * m + 2) * scale, den, m % 2 == 0⟩

/-- Whether `digits · 10 ^ exponent` lies in the interval. -/
def Interval.holds (i : Interval) (d : Decimal) : Bool :=
  let point :=
    if 0 ≤ d.exponent then d.digits * Nat.pow 10 d.exponent.toNat * i.den else d.digits * i.den
  let unit := if 0 ≤ d.exponent then 1 else Nat.pow 10 (-d.exponent).toNat
  if i.closed then i.low * unit ≤ point && point ≤ i.high * unit
  else i.low * unit < point && point < i.high * unit

/-- The better of the two neighbours on the grid of step `10 ^ exponent`, if either reads back: the
nearer one, and of two equally near the one with an even last digit. -/
def Interval.onGrid (i : Interval) (exponent : Int) : Option Decimal :=
  let n := if 0 ≤ exponent then i.value else i.value * Nat.pow 10 (-exponent).toNat
  let d := if 0 ≤ exponent then i.den * Nat.pow 10 exponent.toNat else i.den
  let floor : Decimal := ⟨n / d, exponent⟩
  let ceiling : Decimal := ⟨n / d + 1, exponent⟩
  match i.holds floor, i.holds ceiling with
  | true, true => some ⟨roundDiv n d, exponent⟩
  | true, false => some floor
  | false, true => some ceiling
  | false, false => none

/-- The power of ten above the number: `10 ^ (k - 1) ≤ value < 10 ^ k`. -/
def Interval.magnitude (i : Interval) : Int :=
  let whole := i.value / i.den
  if 0 < whole then Binary64.decimalLength whole
  else
    -- the reciprocal has as many digits as there are zeros behind the point
    let inverse := (i.den + i.value - 1) / i.value
    1 - (Binary64.decimalLength (inverse - 1) : Int)

/-- Tries grids with more and more digits. -/
def Interval.shortestFrom (i : Interval) (magnitude : Int) : (grids digits : Nat) → Decimal
  | 0, _ => ⟨0, 0⟩
  | grids + 1, digits =>
    match i.onGrid (magnitude - digits) with
    | some d => d
    | none => i.shortestFrom magnitude grids (digits + 1)

/-- The shortest decimal that reads back as the non-zero number, 17 digits at most. Only a power of
ten found from below ends in a zero, a single one. -/
def shortest (x : Binary64) : Decimal :=
  let i := Interval.of x
  let d := i.shortestFrom i.magnitude 17 1
  if d.digits % 10 = 0 then ⟨d.digits / 10, d.exponent + 1⟩ else d

/-- How a number is laid out: between which magnitudes the point is written in its place, whether a
whole number gets a final `.0`, and whether a positive exponent has its sign. -/
structure Layout where
  /-- Magnitudes above this bound get an exponent; none: never. -/
  largest : Option Nat
  /-- Magnitudes at or below minus this bound get an exponent; none: never. -/
  smallest : Option Nat
  /-- Whether a positive exponent is written with a plus sign. -/
  plus : Bool

def digitsText (n : Nat) : Text := Nat.toDigits 10 n

/-- The decimal as text, without sign. -/
def layOut (layout : Layout) (d : Decimal) : Text :=
  let digits := digitsText d.digits
  let length : Int := digits.length
  let magnitude := length + d.exponent
  let positional :=
    layout.largest.all (fun bound => magnitude ≤ (bound : Int)) &&
      layout.smallest.all (fun bound => -(bound : Int) < magnitude)
  if positional then
    if 0 ≤ d.exponent then digits ++ List.replicate d.exponent.toNat '0' ++ ['.', '0']
    else if 0 < magnitude then
      digits.take magnitude.toNat ++ ['.'] ++ digits.drop magnitude.toNat
    else ['0', '.'] ++ List.replicate (-magnitude).toNat '0' ++ digits
  else
    let mantissa := match digits with
      | [digit] => [digit]
      | digit :: more => digit :: '.' :: more
      | [] => []
    let exponent := magnitude - 1
    let sign : Text := if exponent < 0 then ['-'] else if layout.plus then ['+'] else []
    mantissa ++ ['e'] ++ sign ++ digitsText exponent.natAbs

end Decimal

/-- The number's text: its sign, and the fewest digits that read back. -/
def Binary64.text (layout : Decimal.Layout) (x : Binary64) : Text :=
  let sign : Text := if x.negative then ['-'] else []
  if x.isZero then sign ++ ['0', '.', '0'] else sign ++ (Decimal.shortest x).layOut layout

end Partials
