/-!
# Binary floating point

Finite numbers of the 64-bit binary format, as exact integers: `m · 2 ^ e` with a sign. Every
operation computes the exact result as a ratio of natural numbers and rounds it once, to the
nearest number of the format, a tie to the even one.
-/

namespace Partials

/-- The natural number nearest to `n / d`; a tie goes to the even one. -/
def roundDiv (n d : Nat) : Nat :=
  let q := n / d
  let r := n % d
  if 2 * r < d then q
  else if d < 2 * r then q + 1
  else if q % 2 = 0 then q
  else q + 1

/-- A finite number `± mantissa · 2 ^ exponent`. -/
structure Binary64 where
  negative : Bool
  mantissa : Nat
  exponent : Int
  deriving DecidableEq, Repr

namespace Binary64

/-- The bits of a full mantissa. -/
def precision : Nat := 53

/-- The exponent of the numbers closest to zero. -/
def lowest : Int := -1074

/-- The exponent of the numbers furthest from zero. -/
def highest : Int := 971

def zero (negative : Bool) : Binary64 := ⟨negative, 0, lowest⟩

def isZero (x : Binary64) : Bool := x.mantissa == 0

/-- The exponent under which `num / den` has a mantissa of full precision, or the lowest one. -/
def exponentFor (num den : Nat) : Int :=
  let guess : Int := (num.log2 : Int) - den.log2 - (precision - 1)
  let short :=
    if 0 ≤ guess then num < Nat.pow 2 (precision - 1) * (den * Nat.pow 2 guess.toNat)
    else num * Nat.pow 2 (-guess).toNat < Nat.pow 2 (precision - 1) * den
  max lowest (if short then guess - 1 else guess)

/-- The number nearest to `num / den`; none if that lies beyond the largest finite number. -/
def ofRatio (negative : Bool) (num den : Nat) : Option Binary64 :=
  if num = 0 then some (zero negative)
  else
    let e := exponentFor num den
    let m :=
      if 0 ≤ e then roundDiv num (den * Nat.pow 2 e.toNat)
      else roundDiv (num * Nat.pow 2 (-e).toNat) den
    let x : Binary64 :=
      if m = Nat.pow 2 precision then ⟨negative, Nat.pow 2 (precision - 1), e + 1⟩
      else ⟨negative, m, e⟩
    if highest < x.exponent then none else some x

/-- The magnitude as a ratio. -/
def num (x : Binary64) : Nat :=
  if 0 ≤ x.exponent then x.mantissa * Nat.pow 2 x.exponent.toNat else x.mantissa

def den (x : Binary64) : Nat :=
  if 0 ≤ x.exponent then 1 else Nat.pow 2 (-x.exponent).toNat

def ofNat? (n : Nat) : Option Binary64 := ofRatio false n 1

def mul? (x y : Binary64) : Option Binary64 :=
  ofRatio (x.negative != y.negative) (x.num * y.num) (x.den * y.den)

/-- The quotient; the divisor is not zero. -/
def div? (x y : Binary64) : Option Binary64 :=
  ofRatio (x.negative != y.negative) (x.num * y.den) (x.den * y.num)

def neg (x : Binary64) : Binary64 := { x with negative := !x.negative }

/-- The number of decimal digits of `n`, at least one. -/
def decimalLength (n : Nat) : Nat := (Nat.toDigits 10 n).length

/-- The number nearest to `significand · 10 ^ exponent`. Exponents far outside the format are
settled without computing the power. -/
def ofDecimal (negative : Bool) (significand : Nat) (exponent : Int) : Option Binary64 :=
  if significand = 0 then some (zero negative)
  else
    let magnitude := exponent + decimalLength significand
    if 400 < magnitude then none
    else if magnitude < -400 then some (zero negative)
    else if 0 ≤ exponent then ofRatio negative (significand * Nat.pow 10 exponent.toNat) 1
    else ofRatio negative significand (Nat.pow 10 (-exponent).toNat)

end Binary64

end Partials
