import Partials.Number.Decimal

/-!
# Numbers

A number is an integer or a binary floating-point number; the two are told apart in every record
format, so `100` and `100.0` differ.
-/

namespace Partials

inductive Number
  | integer (n : Int)
  | float (x : Binary64)
  deriving DecidableEq, Repr

namespace Number

/-- The integer's decimal digits, after a minus sign if it is negative. -/
def integerText (n : Int) : Text :=
  if n < 0 then '-' :: Decimal.digitsText n.natAbs else Decimal.digitsText n.natAbs

/-- The layout of numbers in texts: the point is written in its place for magnitudes up to 16 digits
and down to four zeros behind the point, and exponents have a sign. -/
def plainLayout : Decimal.Layout := ⟨some 16, some 5, true⟩

def textWith (layout : Decimal.Layout) : Number → Text
  | integer n => integerText n
  | float x => x.text layout

def text (n : Number) : Text := n.textWith plainLayout

end Number

end Partials
