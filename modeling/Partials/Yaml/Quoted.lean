import Partials.Text.Utf8
import Partials.Yaml.Cursor
import Partials.Yaml.Meaning
import Partials.Yaml.Token

/-!
# Writing YAML texts

A text of several lines is written as a literal block. Any other one is written plainly where that
reads back as the same text, and otherwise in quotes. What no other style can show has escapes
between double quotes.
-/

namespace Partials.Yaml

/-- A character that is shown as it is; a tab is not. -/
def isShown (c : Char) : Bool :=
  let n := c.toNat
  c == '\n' || (0x20 ≤ n && n ≤ 0x7E) || (0xA0 ≤ n && n ≤ 0xFFFD && c != '\uFEFF')

/-- Whether a character satisfying `p` stands directly before one satisfying `q`. -/
def hasPair (p q : Char → Bool) : Text → Bool
  | c :: d :: t => (p c && q d) || hasPair p q (d :: t)
  | _ => false

def isSpace (c : Char) : Bool := c == ' '

/-- Whether no style but double quotes can show the text. -/
def needsEscapes (t : Text) : Bool := !t.all isShown || hasPair isSpace isBreak t

/-- Whether the text holds what would be read as more than a plain scalar: a mark, an indicator at
its start, a colon that ends a word, or the start of a comment. -/
def hasIndicator (t : Text) : Bool :=
  (Text.after? Cursor.startMark t).isSome || (Text.after? Cursor.endMark t).isSome ||
    (match t with
      | c :: rest =>
        "#,[]\x7b\x7d&*!|>\"%@\x60".toList.contains c || c == '\x27' ||
          ((c == '?' || c == ':' || c == '-') && endsWord rest)
      | [] => false) ||
    t.getLast? == some ':' ||
    hasPair (· == ':') (fun c => isGap c || isBreak c) t ||
    hasPair (fun c => isGap c || isBreak c) (· == '#') t

def isEdge (c : Char) : Bool := isSpace c || isBreak c

/-- Whether the text can be written plainly. -/
def canBePlain (t : Text) : Bool :=
  !needsEscapes t && !hasIndicator t && !t.any isBreak && !t.head?.any isEdge &&
    !t.getLast?.any isEdge

def canBeSingle (t : Text) : Bool := !needsEscapes t && !hasPair isBreak isSpace t

def canBeLiteral (t : Text) : Bool := !needsEscapes t && !t.getLast?.any isSpace

/-- Whether the text, written plainly, would be read as itself and not as another value. -/
def readsAsText (t : Text) : Bool :=
  !isPaddedDigits t &&
    match untyped? t with
    | some (.text _) => true
    | _ => false

/-- The style for a text. -/
def Style.choose (t : Text) : Style :=
  if t.contains '\n' then if canBeLiteral t then literal else double
  else if readsAsText t ∧ canBePlain t then plain
  else if canBeSingle t then single
  else double

def spaces (n : Nat) : Text := List.replicate n ' '

/-- The lines of a text with `indent` before each that is not empty; `broken` says whether a break
has just been written. -/
def indentLines (indent : Nat) : (broken : Bool) → Text → Text
  | _, [] => []
  | broken, c :: t =>
    if isBreak c then c :: indentLines indent true t
    else (if broken then spaces indent else []) ++ c :: indentLines indent false t

/-- How many of the breaks at the end of a literal block belong to the text: all, one or none. -/
def chompingMark (t : Text) : Text :=
  match t.reverse with
  | c :: rest =>
    if !isBreak c then ['-']
    else match rest with
      | [] => ['+']
      | d :: _ => if isBreak d then ['+'] else []
  | [] => ['-']

/-- The digit that gives the indentation, where the text starts with a space or a break. -/
def indentMark (t : Text) : Text := if t.head?.any isEdge then ['2'] else []

/-- The escape of a character. -/
def escapeText (c : Char) : Text :=
  let n := c.toNat
  if n = 0x00 then ['\\', '0']
  else if n = 0x07 then ['\\', 'a']
  else if n = 0x08 then ['\\', 'b']
  else if n = 0x09 then ['\\', 't']
  else if n = 0x0A then ['\\', 'n']
  else if n = 0x0B then ['\\', 'v']
  else if n = 0x0C then ['\\', 'f']
  else if n = 0x0D then ['\\', 'r']
  else if n = 0x1B then ['\\', 'e']
  else if n = 0x22 ∨ n = 0x5C then ['\\', c]
  else if n = 0x85 then ['\\', 'N']
  else if n = 0x2028 then ['\\', 'L']
  else if n = 0x2029 then ['\\', 'P']
  else if n ≤ 0xFF then '\\' :: 'x' :: Hex.upperDigits n 2
  else if n ≤ 0xFFFF then '\\' :: 'u' :: Hex.upperDigits n 4
  else '\\' :: 'U' :: Hex.upperDigits n 8

def needsEscape (c : Char) : Bool := !isShown c || isBreak c || c == '"' || c == '\\'

def escape (t : Text) : Text := t.flatMap fun c => if needsEscape c then escapeText c else [c]

/-- A scalar's text with the end of its line; `indent` is that of its lines from the second on. -/
def quote (indent : Nat) (t : Text) : Text :=
  match Style.choose t with
  | .plain => t ++ ['\n']
  | .single =>
    let last := if t.getLast?.any isBreak then spaces indent else []
    '\x27' :: indentLines indent false (Text.replaceChar '\x27' ['\x27', '\x27'] t) ++ last ++
      ['\x27', '\n']
  | .literal | .folded =>
    let last : Text := if t.getLast?.any isBreak then [] else ['\n']
    '|' :: indentMark t ++ chompingMark t ++ '\n' :: indentLines indent true t ++ last
  | .double => '"' :: escape t ++ ['"', '\n']

end Partials.Yaml
