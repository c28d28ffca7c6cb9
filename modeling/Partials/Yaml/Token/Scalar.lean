import Partials.Text.Hex
import Partials.Yaml.Cursor

/-!
# Scalars of YAML

The text of a scalar in each of its styles. Line breaks inside a scalar are folded, save in a
literal one: a single break becomes a space, and of several the first one goes.
-/

namespace Partials.Yaml

/-- The gaps and breaks between two words of a scalar. -/
structure Gap where
  /-- Whether a line ended. -/
  broken : Bool := false
  /-- The gaps before the first break. -/
  blanks : Text := []
  first : Option Char := none
  /-- The breaks behind the first one. -/
  later : Text := []

/-- What the gap stands for. -/
def Gap.text (g : Gap) : Text :=
  if !g.broken then g.blanks
  else if g.first = some '\n' then if g.later = [] then [' '] else g.later
  else g.first.toList ++ g.later

/-- Reads gaps and breaks. A tab may not stand before column `indent` of a line. -/
def readGap (indent : Nat) : (fuel : Nat) → Gap → Cursor → Option (Gap × Cursor)
  | 0, g, c => some (g, c)
  | fuel + 1, g, c =>
    match c.break? with
    | some (b, next) =>
      if g.broken then readGap indent fuel { g with later := g.later ++ [b] } next
      else readGap indent fuel { broken := true, first := some b } next
    | none =>
      match c.rest with
      | d :: _ =>
        if isGap d then
          if g.broken then
            if d = '\t' ∧ c.column < indent then none else readGap indent fuel g (c.drop 1)
          else readGap indent fuel { g with blanks := g.blanks ++ [d] } (c.drop 1)
        else some (g, c)
      | [] => some (g, c)

/-- The characters that structure flow collections. -/
def isFlowIndicator (c : Char) : Bool :=
  c == ',' || c == '[' || c == ']' || c == '\x7b' || c == '\x7d'

/-- The number of characters of the word that comes next; none if it is malformed. -/
def wordLength (flow : Bool) : Text → Option Nat
  | [] => some 0
  | c :: t =>
    if isGap c || isBreak c then some 0
    else if flow && c == ':' && t.head?.any (fun d => isFlowIndicator d || d == '?') then none
    else if (c == ':' && endsWord t) || (flow && isFlowIndicator c) then some 0
    else (wordLength flow t).map (· + 1)

/-- A plain scalar from its next word on, after `gap`; and whether a line ended behind it. -/
def readPlain (flow : Bool) (indent : Nat) :
    (fuel : Nat) → (gap : Gap) → Cursor → Option (Text × Bool × Cursor)
  | 0, _, _ => none
  | fuel + 1, gap, c => do
    if c.atDocumentMark || c.rest.head? == some '#' then return ([], gap.broken, c)
    let length ← wordLength flow c.rest
    if length = 0 then return ([], gap.broken, c)
    let text := gap.text ++ c.rest.take length
    let c := c.drop length
    let (next, c') ← readGap indent c.rest.length {} c
    if !next.broken && next.blanks.isEmpty then return (text, false, c)
    if !flow && c'.column < indent then return (text, next.broken, c')
    let (more, broken, rest) ← readPlain flow indent fuel next c'
    return (text ++ more, broken, rest)

/-- The character of a short escape. -/
def shortEscape? (c : Char) : Option Char :=
  if c = '0' then some '\x00'
  else if c = 'a' then some '\x07'
  else if c = 'b' then some '\x08'
  else if c = 't' ∨ c = '\t' then some '\t'
  else if c = 'n' then some '\n'
  else if c = 'v' then some '\x0b'
  else if c = 'f' then some '\x0c'
  else if c = 'r' then some '\r'
  else if c = 'e' then some '\x1b'
  else if c = ' ' ∨ c = '"' ∨ c = '/' ∨ c = '\\' then some c
  else if c = 'N' then some '\x85'
  else if c = '_' then some '\xa0'
  else if c = 'L' then some '\u2028'
  else if c = 'P' then some '\u2029'
  else none

/-- The number of digits behind the letter of an escape. -/
def codeLength (c : Char) : Nat :=
  if c = 'x' then 2 else if c = 'u' then 4 else if c = 'U' then 8 else 0

/-- The character of an escape whose backslash has been taken, and the length of the escape. -/
def escape? : Text → Option (Char × Nat)
  | [] => none
  | c :: t =>
    match codeLength c with
    | 0 => (shortEscape? c).map fun d => (d, 1)
    | length =>
      if t.length < length then none
      else (Hex.char? (t.take length)).map fun d => (d, length + 1)

/-- The characters up to the next gap, break or closing quote; and whether an escaped break ends
them. -/
def readChunk (quote : Char) : (fuel : Nat) → Cursor → Option (Text × Bool × Cursor)
  | 0, c => some ([], false, c)
  | fuel + 1, c =>
    match c.rest with
    | [] => some ([], false, c)
    | d :: t =>
      let single := quote == '\x27'
      if isGap d || isBreak d then some ([], false, c)
      else if d = quote then
        if single && t.head? == some quote then do
          let (text, broken, rest) ← readChunk quote fuel (c.drop 2)
          return (d :: text, broken, rest)
        else some ([], false, c)
      else if !single && d == '\\' then
        match (c.drop 1).break? with
        | some (_, next) => some ([], true, next)
        | none => do
          let (e, length) ← escape? t
          let (text, broken, rest) ← readChunk quote fuel (c.drop (length + 1))
          return (e :: text, broken, rest)
      else do
        let (text, broken, rest) ← readChunk quote fuel (c.drop 1)
        return (d :: text, broken, rest)

/-- A quoted scalar behind its opening quote. -/
def readQuoted (quote : Char) : (fuel : Nat) → Cursor → Option (Text × Cursor)
  | 0, _ => none
  | fuel + 1, c => do
    if c.atDocumentMark || c.rest.isEmpty then none
    let (text, broken, c) ← readChunk quote (c.rest.length + 1) c
    if c.rest.head? = some quote then return (text, c.drop 1)
    let (gap, c) ← readGap 0 c.rest.length { broken } c
    let (more, rest) ← readQuoted quote fuel c
    return (text ++ gap.text ++ more, rest)

/-- What becomes of the line breaks at the end of a block scalar. -/
inductive Chomping
  | strip
  | clip
  | keep
  deriving DecidableEq, Repr

/-- How a block scalar is to be read: its indentation, if it is given, and its chomping. -/
structure BlockHeader where
  indent : Option Nat
  chomping : Chomping

def chomping? (c : Char) : Option Chomping :=
  if c = '+' then some .keep else if c = '-' then some .strip else none

/-- The digit of an indentation, which may not be zero. -/
def indentDigit? (c : Char) : Option Nat :=
  if c.isDigit ∧ c ≠ '0' then some (c.toNat - 48) else none

/-- The signs behind the indicator of a block scalar, in either order. -/
def readBlockHeader (c : Cursor) : Option (BlockHeader × Cursor) := do
  let (signs, c) := c.span fun d => d.isDigit || d == '+' || d == '-'
  match signs with
  | [] => return (⟨none, .clip⟩, c)
  | [a] =>
    match chomping? a with
    | some chomping => return (⟨none, chomping⟩, c)
    | none => return (⟨← indentDigit? a, .clip⟩, c)
  | [a, b] =>
    match chomping? a with
    | some chomping => return (⟨← indentDigit? b, chomping⟩, c)
    | none => return (⟨← indentDigit? a, ← chomping? b⟩, c)
  | _ => none

/-- Reads the spaces of an indentation and empty lines. With no `indent` all spaces count, and
`widest` is the most seen. A tab may not stand in an indentation. -/
def readBreaks (indent : Option Nat) :
    (fuel : Nat) → (widest : Nat) → Cursor → Option (Nat × Text × Cursor)
  | 0, widest, c => some (widest, [], c)
  | fuel + 1, widest, c =>
    let spaces := (c.rest.takeWhile (· == ' ')).length
    let c := match indent with
      | some n => c.drop (min spaces (n - c.column))
      | none => c.drop spaces
    let widest := max widest c.column
    if c.rest.head? = some '\t' ∧ indent.all (c.column < ·) then none
    else
      match c.break? with
      | some (b, next) => do
        let (widest, breaks, rest) ← readBreaks indent fuel widest next
        return (widest, b :: breaks, rest)
      | none => some (widest, [], c)

/-- The lines of a block scalar at column `indent`, after a line that ended with `first` and
`breaks` and, if `blank`, started with a gap. Gives the text, and the breaks at its end. -/
def readBlockLines (folded : Bool) (indent : Nat) : (fuel : Nat) → (first : Option Char) →
    (breaks : Text) → (blank : Bool) → Cursor → Option (Text × Option Char × Text × Cursor)
  | 0, first, breaks, _, c => some ([], first, breaks, c)
  | fuel + 1, first, breaks, blank, c =>
    if c.column = indent ∧ !c.rest.isEmpty then do
      let startsBlank := c.rest.head?.any isGap
      let joint :=
        if folded && first == some '\n' && !blank && !startsBlank then
          if breaks.isEmpty then [' '] else []
        else first.toList
      let (line, c) := c.span fun d => !isBreak d
      let (first', c) := match c.break? with
        | some (b, next) => (some b, next)
        | none => (none, c)
      let (_, breaks', c) ← readBreaks (some indent) (c.rest.length + 1) 0 c
      let (more, last, trailing, rest) ←
        readBlockLines folded indent fuel first' breaks' startsBlank c
      return (joint ++ breaks ++ line ++ more, last, trailing, rest)
    else some ([], first, breaks, c)

/-- A block scalar behind its indicator, in a block of indentation `parent`. -/
def readBlock (folded : Bool) (parent : Int) (c : Cursor) : Option (Text × Cursor) := do
  let (header, c) ← readBlockHeader c
  let c := (c.dropWhile isGap).dropComment
  if !endsLine c.rest then none
  let c := c.dropBreak
  let given := header.indent.map fun n => (max parent 0).toNat + n
  let (widest, breaks, c) ← readBreaks given (c.rest.length + 1) 0 c
  let indent := given.getD (max widest (max (parent + 1) 1).toNat)
  let (text, last, trailing, rest) ←
    readBlockLines folded indent (c.rest.length + 1) none breaks false c
  let tail := match header.chomping with
    | .strip => []
    | .clip => last.toList
    | .keep => last.toList ++ trailing
  return (text ++ tail, rest)

end Partials.Yaml
