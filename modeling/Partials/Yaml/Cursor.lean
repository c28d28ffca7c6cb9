import Partials.Text

/-!
# Characters and places of a YAML text

Which characters end a line or a word, and a cursor: the rest of a text, and where it starts.
-/

namespace Partials.Yaml

/-- The characters that a text may hold. -/
def isAllowed (c : Char) : Bool :=
  let n := c.toNat
  c == '\t' || c == '\n' || c == '\r' || (0x20 ≤ n && n ≤ 0x7E) || n == 0x85 ||
    (0xA0 ≤ n && n ≤ 0xFFFD) || 0x10000 ≤ n

/-- The characters that end a line: of ASCII the line feed and the carriage return. -/
def isBreak (c : Char) : Bool :=
  c == '\n' || c == '\r' || c == '\x85' || c == '\u2028' || c == '\u2029'

def isGap (c : Char) : Bool := c == ' ' || c == '\t'

/-- A character of a name. -/
def isNameChar (c : Char) : Bool := c.isAlphanum || c == '_' || c == '-'

/-- Whether nothing, a gap or a line break comes next. -/
def endsWord : Text → Bool
  | [] => true
  | c :: _ => isGap c || isBreak c

/-- Whether nothing or a line break comes next. -/
def endsLine : Text → Bool
  | [] => true
  | c :: _ => isBreak c

/-- What a line break stands for in a text: a line feed, except for the separators of lines and
paragraphs. -/
def breakChar (c : Char) : Char := if c = '\u2028' ∨ c = '\u2029' then c else '\n'

/-- The rest of a text and where it starts. -/
structure Cursor where
  rest : Text
  /-- The characters before it. -/
  index : Nat := 0
  /-- The line breaks before it. -/
  line : Nat := 0
  /-- The characters before it on its line. -/
  column : Nat := 0
  deriving Repr

namespace Cursor

/-- Passes over characters of the line. -/
def drop (n : Nat) (c : Cursor) : Cursor :=
  { c with rest := c.rest.drop n, index := c.index + n, column := c.column + n }

/-- The characters of the line up to the first one that does not satisfy `p`. -/
def span (p : Char → Bool) (c : Cursor) : Text × Cursor :=
  let taken := c.rest.takeWhile p
  (taken, c.drop taken.length)

def dropWhile (p : Char → Bool) (c : Cursor) : Cursor := (c.span p).2

/-- The line break that comes next, and what follows it. A carriage return and a line feed are one
break. -/
def break? (c : Cursor) : Option (Char × Cursor) :=
  match c.rest with
  | '\r' :: '\n' :: t => some ('\n', ⟨t, c.index + 2, c.line + 1, 0⟩)
  | b :: t => if isBreak b then some (breakChar b, ⟨t, c.index + 1, c.line + 1, 0⟩) else none
  | [] => none

def dropBreak (c : Cursor) : Cursor :=
  match c.break? with
  | some (_, next) => next
  | none => c

/-- Passes over a comment, if there is one. -/
def dropComment (c : Cursor) : Cursor :=
  if c.rest.head? = some '#' then c.dropWhile fun d => !isBreak d else c

/-- Whether `mark`, which marks a document, stands at the start of a line. -/
def atMark (mark : Text) (c : Cursor) : Bool :=
  c.column == 0 &&
    match Text.after? mark c.rest with
    | some t => endsWord t
    | none => false

def startMark : Text := ['-', '-', '-']

def endMark : Text := ['.', '.', '.']

def atDocumentMark (c : Cursor) : Bool := c.atMark startMark || c.atMark endMark

end Cursor

end Partials.Yaml
