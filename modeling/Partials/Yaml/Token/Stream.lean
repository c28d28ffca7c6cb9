import Partials.Yaml.Token.Scalar
import Partials.Yaml.Token.Tag

/-!
# The tokens of a YAML text

A text is read token by token. Indentation opens and closes blocks, and a word turns out to be a key
only when the colon behind it is met; the tokens that this implies are put before it.
-/

namespace Partials.Yaml

/-- A place where a key may have started. -/
structure Candidate where
  /-- The number of tokens before it. -/
  number : Nat
  index : Nat
  line : Nat
  column : Nat
  /-- Whether nothing but a key may stand there. -/
  required : Bool
  deriving Repr

/-- A candidate must be on the line of its colon and not further away than this. -/
def Candidate.reach : Nat := 1024

/-- Whether the cursor is too far away for the candidate to be a key. -/
def Candidate.isStale (k : Candidate) (c : Cursor) : Bool :=
  k.line < c.line || k.index + reach < c.index

/-- The tokens read so far, and what is known at the cursor. -/
structure Stream where
  cursor : Cursor
  /-- From the last to the first. -/
  tokens : List Token := []
  /-- The columns of the open blocks, the innermost first. -/
  indents : List Nat := []
  /-- Whether a key may start here. -/
  keyAllowed : Bool := true
  /-- A candidate for each open flow collection and one for the text around them, the innermost
  first. -/
  candidates : List (Option Candidate) := [none]
  deriving Repr

namespace Stream

/-- Whether the cursor is inside a flow collection. -/
def inFlow (s : Stream) : Bool := 1 < s.candidates.length

/-- The column of the innermost block, or -1. -/
def indent (s : Stream) : Int :=
  match s.indents with
  | [] => -1
  | n :: _ => n

def push (s : Stream) (t : Token) : Stream := { s with tokens := t :: s.tokens }

/-- Puts a token where `number` tokens stand before it. -/
def insert (s : Stream) (number : Nat) (t : Token) : Stream :=
  let later := s.tokens.length - number
  { s with tokens := s.tokens.take later ++ t :: s.tokens.drop later }

def allowKey (s : Stream) (b : Bool) : Stream := { s with keyAllowed := b }

def move (s : Stream) (c : Cursor) : Stream := { s with cursor := c }

/-- The cursor behind a byte order mark, if the text starts with one. -/
def skipMark (c : Cursor) : Cursor :=
  if c.index = 0 ∧ c.rest.head? = some '\uFEFF' then c.drop 1 else c

/-- Passes over blanks, comments and line breaks. A tab may stand where no key can start. -/
def skip (s : Stream) : (fuel : Nat) → Stream
  | 0 => s
  | fuel + 1 =>
    let tabs := s.inFlow || !s.keyAllowed
    let c := ((skipMark s.cursor).dropWhile fun d => d == ' ' || (tabs && d == '\t')).dropComment
    match c.break? with
    | some (_, next) => skip { s with cursor := next, keyAllowed := s.keyAllowed || !s.inFlow } fuel
    | none => s.move c

/-- Drops candidates that are out of reach; none if one of them had to be a key. -/
def dropStale (s : Stream) : Option Stream := do
  let check (k : Option Candidate) : Option (Option Candidate) :=
    match k with
    | some k => if k.isStale s.cursor then if k.required then none else some none else some (some k)
    | none => some none
  return { s with candidates := ← s.candidates.mapM check }

/-- Closes the blocks that are deeper than `column`; all of them for -1. Inside flow collections
indentation says nothing. -/
def unroll (s : Stream) (column : Int) : Stream :=
  if s.inFlow then s
  else
    let closed := s.indents.takeWhile fun (n : Nat) => column < n
    { s with
      tokens := List.replicate closed.length .blockEnd ++ s.tokens
      indents := s.indents.drop closed.length }

/-- Opens a block at `column` unless one is open there; its token is put at `number`. -/
def roll (s : Stream) (column number : Nat) (t : Token) : Stream :=
  if s.inFlow || (column : Int) ≤ s.indent then s
  else { s.insert number t with indents := column :: s.indents }

/-- Opens a block at the cursor. -/
def rollHere (s : Stream) (t : Token) : Stream := s.roll s.cursor.column s.tokens.length t

/-- Drops the innermost candidate; none if it had to be a key. -/
def dropCandidate (s : Stream) : Option Stream :=
  match s.candidates with
  | some k :: rest => if k.required then none else some { s with candidates := none :: rest }
  | _ => some s

/-- Makes the cursor the innermost candidate, if a key may start here. -/
def saveCandidate (s : Stream) : Option Stream := do
  if !s.keyAllowed then return s
  let s ← s.dropCandidate
  let c := s.cursor
  let required := !s.inFlow && s.indent == c.column
  let k : Candidate := ⟨s.tokens.length, c.index, c.line, c.column, required⟩
  return { s with candidates := some k :: s.candidates.tail }

/-- A token of `length` characters at the cursor. -/
def take (s : Stream) (length : Nat) (t : Token) : Stream := (s.push t).move (s.cursor.drop length)

/-- A directive or a mark of a document; it ends all blocks. -/
def atTop (s : Stream) : Option Stream := do
  return (← (s.unroll (-1)).dropCandidate).allowKey false

def directive (s : Stream) : Option Stream := do
  let s ← s.atTop
  let (t, c) ← readDirective s.cursor
  return (s.push t).move c

def flowStart (s : Stream) (t : Token) : Option Stream := do
  let s ← s.saveCandidate
  return ({ s with candidates := none :: s.candidates }.allowKey true).take 1 t

def flowEnd (s : Stream) (t : Token) : Option Stream := do
  let s ← s.dropCandidate
  let s := if s.inFlow then { s with candidates := s.candidates.tail } else s
  return (s.allowKey false).take 1 t

def flowEntry (s : Stream) : Option Stream := do
  return ((← s.dropCandidate).allowKey true).take 1 .flowEntry

def blockEntry (s : Stream) : Option Stream := do
  if !s.inFlow && !s.keyAllowed then none
  let s ← (s.rollHere .blockSequenceStart).dropCandidate
  return (s.allowKey true).take 1 .blockEntry

def explicitKey (s : Stream) : Option Stream := do
  if !s.inFlow && !s.keyAllowed then none
  let s ← (s.rollHere .blockMappingStart).dropCandidate
  return (s.allowKey !s.inFlow).take 1 .key

/-- A colon: the candidate becomes a key. Without one the key was explicit, or is missing. -/
def value (s : Stream) : Option Stream :=
  match s.candidates with
  | some k :: rest =>
    let s := (s.insert k.number .key).roll k.column k.number .blockMappingStart
    some (({ s with candidates := none :: rest }.allowKey false).take 1 .value)
  | _ =>
    if !s.inFlow && !s.keyAllowed then none
    else some (((s.rollHere .blockMappingStart).allowKey !s.inFlow).take 1 .value)

/-- A token that may be a key, or stand before one. -/
def word (s : Stream) (read : Cursor → Option (Token × Cursor)) : Option Stream := do
  let s ← s.saveCandidate
  let (t, c) ← read s.cursor
  return ((s.allowKey false).push t).move c

def blockScalar (s : Stream) (folded : Bool) : Option Stream := do
  let s ← s.dropCandidate
  let (text, c) ← readBlock folded s.indent (s.cursor.drop 1)
  return ((s.allowKey true).push (.scalar (if folded then .folded else .literal) text)).move c

def plainScalar (s : Stream) : Option Stream := do
  let s ← s.saveCandidate
  let fuel := s.cursor.rest.length + 1
  let (text, broken, c) ← readPlain s.inFlow (s.indent + 1).toNat fuel {} s.cursor
  return ((s.allowKey broken).push (.scalar .plain text)).move c

/-- A name behind its mark. -/
def readNamed (make : Text → Token) (c : Cursor) : Option (Token × Cursor) :=
  (readName (c.drop 1)).map fun (name, rest) => (make name, rest)

/-- A scalar in quotes, at the opening one. -/
def readQuotes (quote : Char) (style : Style) (c : Cursor) : Option (Token × Cursor) :=
  (readQuoted quote (c.rest.length + 1) (c.drop 1)).map fun (text, rest) =>
    (.scalar style text, rest)

/-- Whether a plain scalar can start with `c`, before `t`. -/
def startsPlain (flow : Bool) (c : Char) (t : Text) : Bool :=
  !("-?:,[]\x7b\x7d#&*!|>\"%@\x60".toList.contains c || c == '\x27' || isGap c || isBreak c) ||
    (c == '-' && !t.head?.any isGap) || (!flow && (c == '?' || c == ':') && !endsWord t)

/-- The next token, at its first character. -/
def next (s : Stream) : Option Stream :=
  match s.cursor.rest with
  | [] => none
  | c :: t =>
    let flow := s.inFlow
    if s.cursor.column = 0 ∧ c = '%' then s.directive
    else if s.cursor.atMark Cursor.startMark then s.atTop.map (·.take 3 .documentStart)
    else if s.cursor.atMark Cursor.endMark then s.atTop.map (·.take 3 .documentEnd)
    else if c = '[' then s.flowStart .flowSequenceStart
    else if c = '\x7b' then s.flowStart .flowMappingStart
    else if c = ']' then s.flowEnd .flowSequenceEnd
    else if c = '\x7d' then s.flowEnd .flowMappingEnd
    else if c = ',' then s.flowEntry
    else if c = '-' ∧ endsWord t then s.blockEntry
    else if c = '?' ∧ (flow ∨ endsWord t) then s.explicitKey
    else if c = ':' ∧ (flow ∨ endsWord t) then s.value
    else if c = '*' then s.word (readNamed .alias)
    else if c = '&' then s.word (readNamed .anchor)
    else if c = '!' then s.word (readTag flow)
    else if c = '|' ∧ !flow then s.blockScalar false
    else if c = '>' ∧ !flow then s.blockScalar true
    else if c = '\x27' then s.word (readQuotes c .single)
    else if c = '"' then s.word (readQuotes c .double)
    else if startsPlain flow c t then s.plainScalar
    else none

/-- The tokens of the rest of the text, after those read so far. -/
def finish (s : Stream) : (fuel : Nat) → Option (List Token)
  | 0 => none
  | fuel + 1 => do
    let s ← (s.skip (s.cursor.rest.length + 1)).dropStale
    let s := s.unroll s.cursor.column
    if s.cursor.rest.isEmpty then
      let s ← (s.unroll (-1)).dropCandidate
      return s.tokens.reverse
    else (← s.next).finish fuel

end Stream

/-- The tokens of a text. -/
def Token.ofText? (t : Text) : Option (List Token) :=
  if t.all isAllowed then Stream.finish { cursor := { rest := t } } (t.length + 1) else none

end Partials.Yaml
