import Partials.Text.Hex

/-!
# Quoted TOML texts

TOML has four kinds of quotes. A text is written in the first kind that shows it without escapes,
and with escapes if there is none.
-/

namespace Partials.Toml

/-- A character of a key that needs no quotes. -/
def isBareChar (c : Char) : Bool := c.isAlphanum || c == '_' || c == '-'

/-- The length of the longest run of a character. -/
def longestRun (q : Char) : (run : Nat) → Text → Nat
  | run, [] => run
  | run, c :: cs => if c = q then longestRun q (run + 1) cs else max run (longestRun q 0 cs)

/-- The kinds of quotes. -/
inductive Quotes
  | basic
  | literal
  | multiBasic
  | multiLiteral
  deriving DecidableEq, Repr

namespace Quotes

/-- A character that no kind of quotes shows as it is; tabs and line feeds are not among them. -/
def isHidden (c : Char) : Bool := (c.toNat < 0x20 && c != '\t' && c != '\n') || c == '\x7f'

/-- The quotes for a text. -/
def choose (t : Text) : Quotes :=
  let hidden := t.any isHidden
  let lines := t.contains '\n'
  if !hidden && !t.contains '\\' && !t.contains '"' && !lines then basic
  else if !hidden && !t.contains '\x27' && !lines then literal
  else if !hidden && !t.contains '\\' && longestRun '"' 0 t ≤ 2 then multiBasic
  else if !hidden && longestRun '\x27' 0 t ≤ 2 then multiLiteral
  else if lines then multiBasic
  else basic

def isMulti : Quotes → Bool
  | multiBasic | multiLiteral => true
  | basic | literal => false

def mark : Quotes → Text
  | basic => ['"']
  | literal => ['\x27']
  | multiBasic => ['"', '"', '"']
  | multiLiteral => ['\x27', '\x27', '\x27']

end Quotes

/-- The escape of a character other than a double quote, if it needs one. -/
def escape? (multi : Bool) (c : Char) : Option Text :=
  if c = '\x08' then some ['\\', 'b']
  else if c = '\t' then some ['\\', 't']
  else if c = '\n' then if multi then none else some ['\\', 'n']
  else if c = '\x0c' then some ['\\', 'f']
  else if c = '\r' then some ['\\', 'r']
  else if c = '\\' then some ['\\', '\\']
  else if c.toNat < 0x20 || c == '\x7f' then
    some ('\\' :: 'u' :: Hex.upperDigits c.toNat 4)
  else none

/-- A text between basic quotes. Triple quotes leave runs of two quotes as they are, and `run`
counts the quotes just written so. -/
def escape (multi : Bool) : (run : Nat) → Text → Text
  | _, [] => []
  | run, '"' :: t =>
    if multi && run < 2 then '"' :: escape multi (run + 1) t else '\\' :: '"' :: escape multi 0 t
  | _, c :: t => (escape? multi c).getD [c] ++ escape multi 0 t

/-- The text in its quotes. A text of several lines starts on a line of its own. -/
def quote (t : Text) : Text :=
  let quotes := Quotes.choose t
  let body := match quotes with
    | .basic => escape false 0 t
    | .multiBasic => escape true 0 t
    | .literal | .multiLiteral => t
  let first : Text := if quotes.isMulti && t.contains '\n' then ['\n'] else []
  quotes.mark ++ first ++ body ++ quotes.mark

end Partials.Toml
