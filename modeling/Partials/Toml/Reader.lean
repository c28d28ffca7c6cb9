import Partials.Json.Reader
import Partials.Toml.Quoted
import Partials.Toml.Table

/-!
# Reading TOML

A TOML document as data. As for JSON, each reader takes its part from the start of a text and gives
the rest, and nested readers have fuel of which there is more than they need.
-/

namespace Partials.Toml

def isGap (c : Char) : Bool := c == ' ' || c == '\t'

def skipGap (t : Text) : Text := t.dropWhile isGap

/-- No control character but the tab. -/
def isVisible (c : Char) : Bool := c == '\t' || (0x20 ≤ c.toNat && c.toNat != 0x7F)

/-- Drops blanks, line ends and comments; `comment` says whether the text starts inside one. -/
def skipLines : (comment : Bool) → Text → Text
  | _, [] => []
  | _, '\n' :: t => skipLines false t
  | _, '\r' :: '\n' :: t => skipLines false t
  | true, c :: t => if isVisible c then skipLines true t else c :: t
  | false, c :: t =>
    if isGap c then skipLines false t else if c = '#' then skipLines true t else c :: t

/-- The text behind a line end; the end of the document is one. -/
def newline? : Text → Option Text
  | [] => some []
  | '\n' :: t => some t
  | '\r' :: '\n' :: t => some t
  | _ => none

/-- The text of the next line, if nothing but a comment is left of this one. -/
def lineEnd? (t : Text) : Option Text :=
  match skipGap t with
  | '#' :: t => newline? (t.dropWhile isVisible)
  | t => newline? t

/-- The character of a short escape. -/
def shortEscape? (c : Char) : Option Char :=
  if c = 'b' then some '\x08'
  else if c = 't' then some '\t'
  else if c = 'n' then some '\n'
  else if c = 'f' then some '\x0c'
  else if c = 'r' then some '\r'
  else if c = '"' ∨ c = '\\' then some c
  else none

/-- The character of a code with `length` digits, and the text behind them. -/
def readCode (length : Nat) (t : Text) : Option (Char × Text) :=
  if t.length < length then none
  else (Hex.char? (t.take length)).map fun c => (c, t.drop length)

/-- The character of an escape whose backslash has been taken, and the text behind it. -/
def readEscape : Text → Option (Char × Text)
  | [] => none
  | c :: t =>
    if c = 'u' then readCode 4 t
    else if c = 'U' then readCode 8 t
    else (shortEscape? c).map fun c => (c, t)

theorem length_readCode_le {length : Nat} {t rest : Text} {c : Char}
    (h : readCode length t = some (c, rest)) : rest.length ≤ t.length := by
  unfold readCode at h
  split at h
  · simp at h
  · obtain ⟨_, _, h⟩ := Option.map_eq_some_iff.1 h
    simp only [Prod.mk.injEq] at h
    obtain ⟨_, rfl⟩ := h
    simp

theorem length_readEscape {t rest : Text} {c : Char} (h : readEscape t = some (c, rest)) :
    rest.length < t.length := by
  cases t with
  | nil => simp [readEscape] at h
  | cons d t =>
    rw [readEscape] at h
    split at h
    · exact Nat.lt_succ_of_le (length_readCode_le h)
    · split at h
      · exact Nat.lt_succ_of_le (length_readCode_le h)
      · obtain ⟨_, _, h⟩ := Option.map_eq_some_iff.1 h
        simp only [Prod.mk.injEq] at h
        obtain ⟨_, rfl⟩ := h
        simp

/-- A text in double quotes, on one line. -/
def readBasic : Text → Option (Text × Text)
  | [] => none
  | c :: t =>
    if c = '"' then some ([], t)
    else if c = '\\' then
      match _h : readEscape t with
      | none => none
      | some (c, t) => (readBasic t).map fun (cs, rest) => (c :: cs, rest)
    else if isVisible c then (readBasic t).map fun (cs, rest) => (c :: cs, rest)
    else none
termination_by t => t.length
decreasing_by
  · have := length_readEscape _h
    simp only [List.length_cons]
    omega
  · simp

/-- A text in single quotes, on one line. -/
def readLiteral : Text → Option (Text × Text)
  | [] => none
  | c :: t =>
    if c = '\x27' then some ([], t)
    else if isVisible c then (readLiteral t).map fun (cs, rest) => (c :: cs, rest)
    else none

/-- The end of a text between triple quotes, up to two of which may still belong to the text. -/
def closing? (q : Char) : Text → Option (Text × Text)
  | a :: b :: c :: d :: e :: t =>
    if a = q ∧ b = q ∧ c = q then
      if d = q then if e = q then some ([q, q], t) else some ([q], e :: t)
      else some ([], d :: e :: t)
    else none
  | [a, b, c, d] =>
    if a = q ∧ b = q ∧ c = q then if d = q then some ([q], []) else some ([], [d]) else none
  | [a, b, c] => if a = q ∧ b = q ∧ c = q then some ([], []) else none
  | _ => none

/-- Whether a backslash before the text hides a line end. -/
def hidesLineEnd (t : Text) : Bool :=
  match skipGap t with
  | '\n' :: _ => true
  | '\r' :: '\n' :: _ => true
  | _ => false

/-- Drops blanks and line ends. -/
def skipBlankLines : Text → Text
  | [] => []
  | '\r' :: '\n' :: t => skipBlankLines t
  | c :: t => if isGap c || c == '\n' then skipBlankLines t else c :: t

theorem length_skipBlankLines_le (t : Text) : (skipBlankLines t).length ≤ t.length := by
  fun_induction skipBlankLines t <;> simp_all <;> omega

/-- A text between triple double quotes. -/
def readMultiBasic (t : Text) : Option (Text × Text) :=
  match closing? '"' t with
  | some last => some last
  | none =>
    match t with
    | [] => none
    | '\r' :: '\n' :: t => (readMultiBasic t).map fun (cs, rest) => ('\n' :: cs, rest)
    | '\\' :: t =>
      if hidesLineEnd t then readMultiBasic (skipBlankLines t)
      else
        match _h : readEscape t with
        | none => none
        | some (c, t) => (readMultiBasic t).map fun (cs, rest) => (c :: cs, rest)
    | c :: t =>
      if isVisible c || c == '\n' then
        (readMultiBasic t).map fun (cs, rest) => (c :: cs, rest)
      else none
termination_by t.length
decreasing_by
  · simp only [List.length_cons]
    omega
  · have := length_skipBlankLines_le t
    simp only [List.length_cons]
    omega
  · have := length_readEscape _h
    simp only [List.length_cons]
    omega
  · simp

/-- A text between triple single quotes. -/
def readMultiLiteral (t : Text) : Option (Text × Text) :=
  match closing? '\x27' t with
  | some last => some last
  | none =>
    match t with
    | [] => none
    | '\r' :: '\n' :: t => (readMultiLiteral t).map fun (cs, rest) => ('\n' :: cs, rest)
    | c :: t =>
      if isVisible c || c == '\n' then
        (readMultiLiteral t).map fun (cs, rest) => (c :: cs, rest)
      else none
termination_by t.length
decreasing_by
  · simp only [List.length_cons]
    omega
  · simp

/-- A line end directly behind opening triple quotes does not count. -/
def dropFirstLineEnd : Text → Text
  | '\n' :: t => t
  | '\r' :: '\n' :: t => t
  | t => t

/-- One part of a key. -/
def readPart : Text → Option (Text × Text)
  | '"' :: t => readBasic t
  | '\x27' :: t => readLiteral t
  | t =>
    match t.takeWhile isBareChar with
    | [] => none
    | part => some (part, t.dropWhile isBareChar)

/-- The parts of a key, which points separate. -/
def readParts : (fuel : Nat) → Text → Option (List Text × Text)
  | 0, _ => none
  | fuel + 1, t => do
    let (part, t) ← readPart (skipGap t)
    match skipGap t with
    | '.' :: t =>
      let (parts, rest) ← readParts fuel t
      return (part :: parts, rest)
    | rest => return ([part], rest)

/-- Keys have fewer parts than this, and values less depth. -/
def depthLimit : Nat := 80

/-- A key: the parts before its last one, and the last one. -/
def readKey (t : Text) : Option ((List Text × Text) × Text) := do
  let (parts, rest) ← readParts depthLimit t
  if depthLimit ≤ parts.length then none
  else return ((parts.dropLast, parts.getLastD []), rest)

/-- Digits behind a first one; an underscore may stand between two. -/
def moreDigits (isDigit : Char → Bool) : Text → Text × Text
  | '_' :: c :: t =>
    if isDigit c then
      let (cs, rest) := moreDigits isDigit t
      (c :: cs, rest)
    else ([], '_' :: c :: t)
  | c :: t =>
    if isDigit c then
      let (cs, rest) := moreDigits isDigit t
      (c :: cs, rest)
    else ([], c :: t)
  | [] => ([], [])

/-- Digits, at least one, without the underscores between them. -/
def readDigits (isDigit : Char → Bool) : Text → Option (Text × Text)
  | c :: t =>
    if isDigit c then
      let (cs, rest) := moreDigits isDigit t
      some (c :: cs, rest)
    else none
  | [] => none

/-- Decimal digits; a zero stands alone. -/
def readWhole : Text → Option (Text × Text)
  | '0' :: t => some (['0'], t)
  | t => readDigits Char.isDigit t

def readFraction : Text → Option (Option Text × Text)
  | '.' :: t => (readDigits Char.isDigit t).map fun (digits, rest) => (some digits, rest)
  | t => some (none, t)

def readExponent : Text → Option (Option (Bool × Text) × Text)
  | c :: t =>
    if c = 'e' ∨ c = 'E' then
      let (negative, t) := match t with
        | '-' :: t => (true, t)
        | '+' :: t => (false, t)
        | t => (false, t)
      (readDigits Char.isDigit t).map fun (digits, rest) => (some (negative, digits), rest)
    else some (none, c :: t)
  | [] => some (none, [])

/-- Integers fit into 64 bits with sign. -/
def inRange (n : Int) : Bool := -(Int.pow 2 63) ≤ n && n < Int.pow 2 63

def integer? (n : Int) : Option Scalar :=
  if inRange n then some (.ofNumber (some (.integer n))) else none

/-- The number nearest to a numeral with point or exponent. One beyond the format is refused if it
is positive, and no number if it is negative. -/
def float? (n : Numeral) : Option Scalar :=
  let fraction := n.fraction.getD []
  let (below, digits) := n.exponent.getD (false, [])
  let power : Int := if below then -Numeral.ofDigits digits else Numeral.ofDigits digits
  let significand := Numeral.ofDigits (n.whole ++ fraction)
  match Binary64.ofDecimal n.negative significand (power - fraction.length) with
  | some x => some (.ofNumber (some (.float x)))
  | none => if n.negative then some (.ofNumber none) else none

/-- A decimal number, whose sign has been taken; infinities and what is no number have no value. -/
def readDecimal (negative : Bool) : Text → Option (Scalar × Text)
  | 'i' :: 'n' :: 'f' :: t => some (.ofNumber none, t)
  | 'n' :: 'a' :: 'n' :: t => some (.ofNumber none, t)
  | t => do
    let (whole, t) ← readWhole t
    let (fraction, t) ← readFraction t
    let (exponent, rest) ← readExponent t
    if fraction.isNone ∧ exponent.isNone then
      let n : Int := Numeral.ofDigits whole
      return (← integer? (if negative then -n else n), rest)
    else return (← float? ⟨negative, whole, fraction, exponent⟩, rest)

/-- The digit `c` in a base of up to 16. -/
def isDigitOf (base : Nat) (c : Char) : Bool := (Hex.value? c).any (· < base)

/-- An integer in another base than ten. -/
def readBased (base : Nat) (t : Text) : Option (Scalar × Text) := do
  let (digits, rest) ← readDigits (isDigitOf base) t
  let n := digits.foldl (fun n c => n * base + (Hex.value? c).getD 0) 0
  return (← integer? n, rest)

def readNumber : Text → Option (Scalar × Text)
  | '+' :: t => readDecimal false t
  | '-' :: t => readDecimal true t
  | '0' :: 'x' :: t => readBased 16 t
  | '0' :: 'o' :: t => readBased 8 t
  | '0' :: 'b' :: t => readBased 2 t
  | t => readDecimal false t

/-- Exactly `length` digits that make a number between the bounds. -/
def readField (length low high : Nat) (t : Text) : Option (Nat × Text) :=
  let digits := t.take length
  let n := Numeral.ofDigits digits
  if digits.length = length ∧ digits.all Char.isDigit ∧ low ≤ n ∧ n ≤ high then
    some (n, t.drop length)
  else none

/-- The text behind a character that has to be there. -/
def expect? (c : Char) : Text → Option Text
  | d :: t => if d = c then some t else none
  | [] => none

def daysIn (year month : Nat) : Nat :=
  if month = 2 then
    if year % 4 = 0 ∧ (year % 100 ≠ 0 ∨ year % 400 = 0) then 29 else 28
  else if month = 4 ∨ month = 6 ∨ month = 9 ∨ month = 11 then 30
  else 31

/-- The text behind a date. -/
def date? (t : Text) : Option Text := do
  let (year, t) ← readField 4 0 9999 t
  let (month, t) ← readField 2 1 12 (← expect? '-' t)
  let (_, rest) ← readField 2 1 (daysIn year month) (← expect? '-' t)
  return rest

/-- The text behind the fraction of a second, if there is one. -/
def secondFraction? : Text → Option Text
  | '.' :: t => if t.head?.any Char.isDigit then some (t.dropWhile Char.isDigit) else none
  | t => some t

/-- The text behind a time of day. -/
def time? (t : Text) : Option Text := do
  let (_, t) ← readField 2 0 23 t
  let (_, t) ← readField 2 0 59 (← expect? ':' t)
  let (_, t) ← readField 2 0 60 (← expect? ':' t)
  secondFraction? t

/-- The text behind a distance from universal time, if there is one. -/
def offset? : Text → Option Text
  | c :: t =>
    if c = 'Z' ∨ c = 'z' then some t
    else if c = '+' ∨ c = '-' then do
      let (_, t) ← readField 2 0 23 t
      let (_, rest) ← readField 2 0 59 (← expect? ':' t)
      return rest
    else some (c :: t)
  | [] => some []

/-- Whether the text starts like a date or a time: with four digits and a hyphen, or two and a
colon. -/
def startsDate (t : Text) : Bool := (t.take 4).all Char.isDigit && t[4]? == some '-'

def startsTime (t : Text) : Bool := (t.take 2).all Char.isDigit && t[2]? == some ':'

/-- The text behind a date, a date and time, or a time. -/
def moment? (t : Text) : Option Text :=
  if startsDate t then do
    let t ← date? t
    match t with
    | c :: u =>
      if (c = 'T' ∨ c = 't' ∨ c = ' ') ∧ startsTime u then offset? (← time? u) else some t
    | [] => some []
  else time? t

/-- A moment is a table with one entry, which no record knows. -/
def moment : Datum := .table false [(.text "moment".toList, .flag true)]

/-- A text in any of the four kinds of quotes. -/
def readText : Text → Option (Text × Text)
  | '"' :: '"' :: '"' :: t => readMultiBasic (dropFirstLineEnd t)
  | '"' :: t => readBasic t
  | '\x27' :: '\x27' :: '\x27' :: t => readMultiLiteral (dropFirstLineEnd t)
  | '\x27' :: t => readLiteral t
  | _ => none

/-- A value that is neither an array nor an inline table. -/
def readSimple (t : Text) : Option (Datum × Text) :=
  match t with
  | 't' :: 'r' :: 'u' :: 'e' :: rest => some (.flag true, rest)
  | 'f' :: 'a' :: 'l' :: 's' :: 'e' :: rest => some (.flag false, rest)
  | [] => none
  | c :: _ =>
    if c = '"' ∨ c = '\x27' then (readText t).map fun (text, rest) => (.text text, rest)
    else if startsDate t ∨ startsTime t then (moment? t).map fun rest => (moment, rest)
    else (readNumber t).map fun (s, rest) => (.scalar s, rest)

mutual

/-- The value at the start of a text; `depth` counts the arrays and inline tables around it. -/
def readValue : (fuel depth : Nat) → Text → Option (Datum × Text)
  | 0, _, _ => none
  | fuel + 1, depth, t =>
    match t with
    | '[' :: t =>
      if depth + 1 < depthLimit then
        (readItems fuel (depth + 1) t).map fun (items, rest) => (.list false items, rest)
      else none
    | '\x7b' :: t =>
      if depth + 1 < depthLimit then
        match skipGap t with
        | '\x7d' :: rest => some (.table false [], rest)
        | t => do
          let (pairs, rest) ← readPairs fuel (depth + 1) t
          return ((← Entries.ofPairs? pairs).toDatum, rest)
      else none
    | t => readSimple t

/-- The items up to the bracket that closes their array. -/
def readItems : (fuel depth : Nat) → Text → Option (List Datum × Text)
  | 0, _, _ => none
  | fuel + 1, depth, t =>
    match skipLines false t with
    | ']' :: rest => some ([], rest)
    | t => do
      let (item, t) ← readValue fuel depth t
      match skipLines false t with
      | ']' :: rest => return ([item], rest)
      | ',' :: t =>
        let (items, rest) ← readItems fuel depth t
        return (item :: items, rest)
      | _ => none

/-- The keys and values up to the brace that closes their inline table. -/
def readPairs : (fuel depth : Nat) → Text → Option (List ((List Text × Text) × Datum) × Text)
  | 0, _, _ => none
  | fuel + 1, depth, t => do
    let (key, t) ← readKey t
    let (value, t) ← readValue fuel depth (skipGap (← expect? '=' t))
    match skipGap t with
    | '\x7d' :: rest => return ([(key, value)], rest)
    | ',' :: t =>
      let (pairs, rest) ← readPairs fuel depth t
      return ((key, value) :: pairs, rest)
    | _ => none

end

/-- A header in single or double brackets. -/
def readHeader (t : Text) : Option (Header × Text) :=
  match t with
  | '[' :: '[' :: t => do
    let ((path, key), t) ← readKey t
    return (.element path key, ← expect? ']' (← expect? ']' t))
  | '[' :: t => do
    let ((path, key), t) ← readKey t
    return (.table path key, ← expect? ']' t)
  | _ => none

def readPair (t : Text) : Option (Statement × Text) := do
  let ((path, key), t) ← readKey t
  let (value, rest) ← readValue (Json.fuelFor t) 0 (skipGap (← expect? '=' t))
  return (.pair path key value, rest)

def readStatement (t : Text) : Option (Statement × Text) :=
  match t with
  | '[' :: _ => (readHeader t).map fun (h, rest) => (.header h, rest)
  | t => readPair t

/-- The statements of a document, each of which ends its line. -/
def readStatements : (fuel : Nat) → Text → Option (List Statement)
  | 0, _ => none
  | fuel + 1, t =>
    match skipLines false t with
    | [] => some []
    | t => do
      let (statement, t) ← readStatement t
      return statement :: (← readStatements fuel (← lineEnd? t))

/-- The root table of a TOML text. A byte order mark at its start is passed over. -/
def read? (t : Text) : Option Datum := do
  let t := match t with
    | '\uFEFF' :: t => t
    | t => t
  document? (← readStatements (Json.fuelFor t) t)

/-- Lists may be tables, and may be longer than them; a name may be the key of an empty table. -/
def rules : Record.Rules where
  listsAsTables := true
  surplus := true
  isPayload
    | .table _ entries => entries.isEmpty
    | .list _ items => items.isEmpty
    | _ => false

end Partials.Toml
