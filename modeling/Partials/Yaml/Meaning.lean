import Partials.Number.Numeral
import Partials.Record.Datum
import Partials.Text.Hex

/-!
# What a plain scalar means

Where nothing says what a plain scalar should be, its text decides: null, a flag, an integer, a
floating-point number, or else itself.
-/

namespace Partials.Yaml

def nullWords : List Text := ["null".toList, "Null".toList, "NULL".toList, ['~']]

def isNull (t : Text) : Bool := nullWords.contains t

def flag? (t : Text) : Option Bool :=
  if ["true".toList, "True".toList, "TRUE".toList].contains t then some true
  else if ["false".toList, "False".toList, "FALSE".toList].contains t then some false
  else none

/-- Digits behind a leading zero, with or without sign: a text, not a number. -/
def isPaddedDigits (t : Text) : Bool :=
  let digits := match t with
    | '+' :: t => t
    | '-' :: t => t
    | t => t
  match digits with
  | '0' :: d :: ds => (d :: ds).all Char.isDigit
  | _ => false

/-- The value of digits in a base of up to 16, at least one digit. -/
def natural? (base : Nat) (digits : Text) : Option Nat := do
  let values ← digits.mapM Hex.value?
  if values.isEmpty || values.any (base ≤ ·) then none
  else return values.foldl (fun n v => n * base + v) 0

/-- The magnitude of an integer without sign. A letter behind a zero names the base. -/
def magnitude? : Text → Option Nat
  | '0' :: 'x' :: t => natural? 16 t
  | '0' :: 'o' :: t => natural? 8 t
  | '0' :: 'b' :: t => natural? 2 t
  | t => natural? 10 t

def integer? (t : Text) : Option Int :=
  if isPaddedDigits t then none
  else match t with
    | '-' :: t => (magnitude? t).map fun n => -(n : Int)
    | '+' :: t => (magnitude? t).map fun n => (n : Int)
    | t => (magnitude? t).map fun n => (n : Int)

/-- Integers of 64 bits are numbers, and wider ones up to 128 bits are integers without a use. -/
inductive IntegerRange
  | usable
  | unusable
  | beyond

def IntegerRange.of (n : Int) : IntegerRange :=
  if -(Int.pow 2 63) ≤ n ∧ n < Int.pow 2 64 then usable
  else if -(Int.pow 2 127) ≤ n ∧ n < Int.pow 2 128 then unusable
  else beyond

/-- A number with digits before or behind its point, and perhaps an exponent. -/
def numeral? (t : Text) : Option Numeral := do
  let (negative, t) := match t with
    | '-' :: t => (true, t)
    | '+' :: t => (false, t)
    | t => (false, t)
  let whole := t.takeWhile Char.isDigit
  let t := t.dropWhile Char.isDigit
  let (fraction, t) := match t with
    | '.' :: t => (some (t.takeWhile Char.isDigit), t.dropWhile Char.isDigit)
    | t => (none, t)
  if whole.isEmpty && (fraction.getD []).isEmpty then none
  let (exponent, rest) ← Numeral.exponent? t
  if rest.isEmpty then some ⟨negative, whole, fraction, exponent⟩ else none

/-- A number as a plain scalar, whether it has a value or not. -/
inductive Real
  | finite (x : Binary64)
  /-- An infinity, or what is no number. -/
  | special

def specialWords : List Text :=
  [".inf", ".Inf", ".INF", "+.inf", "+.Inf", "+.INF", "-.inf", "-.Inf", "-.INF", ".nan", ".NaN",
    ".NAN"].map String.toList

/-- The floating-point number of a text; one beyond the format is none. -/
def real? (t : Text) : Option Real :=
  if specialWords.contains t then some .special
  else do
    let n ← numeral? t
    let fraction := n.fraction.getD []
    let (below, digits) := n.exponent.getD (false, [])
    let power : Int := if below then -Numeral.ofDigits digits else Numeral.ofDigits digits
    let significand := Numeral.ofDigits (n.whole ++ fraction)
    return .finite (← Binary64.ofDecimal n.negative significand (power - fraction.length))

/-- The number of a real, if it has one. -/
def Real.untyped? : Real → Option Untyped
  | .finite x => some (.number (.float x))
  | .special => none

/-- What a plain scalar is where nothing says what it should be; none if it cannot be used. -/
def untyped? (t : Text) : Option Untyped :=
  if t.isEmpty || isNull t then some .null
  else match flag? t with
    | some b => some (.flag b)
    | none =>
      let other : Option Untyped :=
        if isPaddedDigits t then some (.text t)
        else match real? t with
          | some x => x.untyped?
          | none => some (.text t)
      match integer? t with
      | none => other
      | some n =>
        match IntegerRange.of n with
        | .usable => some (.number (.integer n))
        | .unusable => none
        | .beyond => other

end Partials.Yaml
