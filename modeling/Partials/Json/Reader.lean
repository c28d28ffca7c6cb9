import Partials.Number.Numeral
import Partials.Record.Decoding
import Partials.Text.Hex

/-!
# Reading JSON

A JSON text as data. The readers of parts take the part from the start of a text and give the rest
of it; those of lists and tables have fuel, of which the length of the text is more than they need.
-/

namespace Partials.Json

/-- What may stand between the parts of a text. -/
def isGap (c : Char) : Bool := c == ' ' || c == '\n' || c == '\t' || c == '\r'

def skipGap (t : Text) : Text := t.dropWhile isGap

/-- The character of a short escape. -/
def shortEscape? (c : Char) : Option Char :=
  if c = '"' ∨ c = '\\' ∨ c = '/' then some c
  else if c = 'b' then some '\x08'
  else if c = 'f' then some '\x0c'
  else if c = 'n' then some '\n'
  else if c = 'r' then some '\r'
  else if c = 't' then some '\t'
  else none

/-- What stands between quotes: characters, or the halves of characters that take two units of 16
bits. -/
inductive Piece
  | char (c : Char)
  | half (n : Nat)
  deriving DecidableEq, Repr

/-- What an escaped unit of 16 bits stands for. -/
def Piece.ofUnit (n : Nat) : Piece :=
  if 0xD800 ≤ n ∧ n ≤ 0xDFFF then .half n else .char (Char.ofNat n)

/-- The pieces up to the closing quote, and the text behind it. -/
def readPieces : Text → Option (List Piece × Text)
  | [] => none
  | '"' :: t => some ([], t)
  | '\\' :: 'u' :: a :: b :: c :: d :: t => do
    let n ← Hex.ofDigits? [a, b, c, d]
    let (pieces, rest) ← readPieces t
    return (.ofUnit n :: pieces, rest)
  | '\\' :: c :: t => do
    let c ← shortEscape? c
    let (pieces, rest) ← readPieces t
    return (.char c :: pieces, rest)
  | c :: t =>
    if c = '\\' ∨ c.toNat < 0x20 then none
    else do
      let (pieces, rest) ← readPieces t
      return (.char c :: pieces, rest)

/-- The character of two halves, the first of which is a leading one. -/
def joinHalves (high low : Nat) : Char :=
  Char.ofNat (0x10000 + (high - 0xD800) * 0x400 + (low - 0xDC00))

/-- The text of the pieces; none if a half stands alone. -/
def assemble : List Piece → Option Text
  | [] => some []
  | .char c :: pieces => (assemble pieces).map (c :: ·)
  | .half high :: .half low :: pieces =>
    if high < 0xDC00 ∧ 0xDC00 ≤ low then (assemble pieces).map (joinHalves high low :: ·) else none
  | .half _ :: _ => none

/-- The text up to the closing quote as a scalar. A lone half is well-formed and no text. -/
def readText (t : Text) : Option (Scalar × Text) := do
  let (pieces, rest) ← readPieces t
  return (((assemble pieces).map Scalar.ofText).getD {}, rest)

/-- The literals, numbers and texts. -/
def readScalar (t : Text) : Option (Scalar × Text) :=
  match t with
  | '"' :: t => readText t
  | 'n' :: 'u' :: 'l' :: 'l' :: t => some (.null, t)
  | 't' :: 'r' :: 'u' :: 'e' :: t => some (.ofFlag true, t)
  | 'f' :: 'a' :: 'l' :: 's' :: 'e' :: t => some (.ofFlag false, t)
  | t => (Numeral.ofText? t).map fun (n, rest) => (.ofNumber n.value?, rest)

/-- What follows an item: a comma, or the end. -/
inductive Follow
  | more
  | done

/-- What follows an item of a list or table that `close` ends, and the text behind it. -/
def follow? (close : Char) (t : Text) : Option (Follow × Text) :=
  match skipGap t with
  | c :: t => if c = ',' then some (.more, t) else if c = close then some (.done, t) else none
  | [] => none

mutual

/-- The value at the start of a text. -/
def readValue : (fuel : Nat) → Text → Option (Datum × Text)
  | 0, _ => none
  | fuel + 1, t =>
    match skipGap t with
    | '[' :: t =>
      match skipGap t with
      | ']' :: rest => some (.list false [], rest)
      | t => (readItems fuel t).map fun (items, rest) => (.list false items, rest)
    | '\x7b' :: t =>
      match skipGap t with
      | '\x7d' :: rest => some (.table false [], rest)
      | t => (readEntries fuel t).map fun (entries, rest) => (.table false entries, rest)
    | t => (readScalar t).map fun (s, rest) => (.scalar s, rest)

/-- The items up to the bracket that closes their list. -/
def readItems : (fuel : Nat) → Text → Option (List Datum × Text)
  | 0, _ => none
  | fuel + 1, t => do
    let (item, t) ← readValue fuel t
    match ← follow? ']' t with
    | (.done, rest) => return ([item], rest)
    | (.more, t) =>
      let (items, rest) ← readItems fuel t
      return (item :: items, rest)

/-- The entries up to the brace that closes their table. -/
def readEntries : (fuel : Nat) → Text → Option (List (Datum × Datum) × Text)
  | 0, _ => none
  | fuel + 1, t => do
    match skipGap t with
    | '"' :: t =>
      let (key, t) ← readText t
      match skipGap t with
      | ':' :: t =>
        let (value, t) ← readValue fuel t
        match ← follow? '\x7d' t with
        | (.done, rest) => return ([(.scalar key, value)], rest)
        | (.more, t) =>
          let (entries, rest) ← readEntries fuel t
          return ((.scalar key, value) :: entries, rest)
      | _ => none
    | _ => none

end

/-- Each value and each item takes at least one character. -/
def fuelFor (t : Text) : Nat := 2 * t.length + 2

/-- The value of a JSON text. -/
def read? (t : Text) : Option Datum := do
  let (value, rest) ← readValue (fuelFor t) t
  if skipGap rest = [] then some value else none

/-- A table may be a list of its values, and a name may be the key of a table that holds null. -/
def rules : Record.Rules where
  listsAsTables := true
  surplus := false
  isPayload payload := payload.any? == some .null

end Partials.Json
