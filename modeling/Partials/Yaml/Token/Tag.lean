import Partials.Text.Hex
import Partials.Text.Utf8
import Partials.Yaml.Cursor
import Partials.Yaml.Token

/-!
# Names, tags and directives of YAML

The tokens that begin with a special character and end with the word.
-/

namespace Partials.Yaml

/-- Whether the text behind a name may follow it. -/
def endsName (t : Text) : Bool :=
  endsWord t || t.head?.any fun c =>
    c == '?' || c == ':' || c == ',' || c == ']' || c == '\x7d' || c == '%' || c == '@' ||
      c == '\x60'

/-- The name of an anchor or alias, behind its mark. -/
def readName (c : Cursor) : Option (Text × Cursor) :=
  let (name, rest) := c.span isNameChar
  if name.isEmpty || !endsName rest.rest then none else some (name, rest)

/-- A character of a tag. Commas and brackets are only allowed where the tag's end is marked. -/
def isTagChar (delimited : Bool) (c : Char) : Bool :=
  isNameChar c || ";/?:@&=+$.!~*()%".toList.contains c || c == '\x27' ||
    (delimited && (c == ',' || c == '[' || c == ']'))

/-- The bytes that are written as percent signs with two digits, where others stand for
themselves. -/
def unescape : Text → Option Utf8.Bytes
  | [] => some []
  | '%' :: a :: b :: t => do
    let byte ← Hex.ofDigits? [a, b]
    return UInt8.ofNat byte :: (← unescape t)
  | '%' :: _ => none
  | c :: t => do return String.utf8EncodeChar c ++ (← unescape t)

/-- Characters of a tag. -/
def readTagText (delimited : Bool) (c : Cursor) : Option (Text × Cursor) := do
  let (taken, rest) := c.span (isTagChar delimited)
  return (← Utf8.decode? (← unescape taken), rest)

/-- A handle: an exclamation mark, or a name between two. -/
def handleLength (t : Text) : Nat :=
  match t with
  | '!' :: t =>
    let name := t.takeWhile isNameChar
    if (t.drop name.length).head? = some '!' then name.length + 2 else 1
  | _ => 0

/-- A tag in angle brackets, behind the opening one. -/
def readVerbatim (c : Cursor) : Option (Token × Cursor) := do
  let (suffix, rest) ← readTagText true c
  if suffix.isEmpty || rest.rest.head? != some '>' then none
  else return (.tag [] suffix, rest.drop 1)

/-- A tag with a handle. The tag of a single mark has none. -/
def readShort (c : Cursor) : Option (Token × Cursor) := do
  let length := handleLength c.rest
  let (suffix, rest) ← readTagText false (c.drop length)
  if 1 < length then
    if suffix.isEmpty then none else return (.tag (c.rest.take length) suffix, rest)
  else if suffix.isEmpty then return (.tag [] ['!'], rest)
  else return (.tag ['!'] suffix, rest)

/-- A tag, at its exclamation mark. -/
def readTag (flow : Bool) (c : Cursor) : Option (Token × Cursor) := do
  let (token, rest) ← if c.rest[1]? = some '<' then readVerbatim (c.drop 2) else readShort c
  if endsWord rest.rest || (flow && rest.rest.head? == some ',') then return (token, rest)
  else none

/-- A part of a version, of at most nine digits. -/
def readVersionPart (c : Cursor) : Option (Nat × Cursor) :=
  let (digits, rest) := c.span Char.isDigit
  if digits.isEmpty || 9 < digits.length then none
  else some (digits.foldl (fun n d => n * 10 + (d.toNat - 48)) 0, rest)

def readVersion (c : Cursor) : Option (Token × Cursor) := do
  let (major, c) ← readVersionPart (c.dropWhile isGap)
  if c.rest.head? ≠ some '.' then none
  let (minor, rest) ← readVersionPart (c.drop 1)
  return (.version major minor, rest)

def readHandle (c : Cursor) : Option (Token × Cursor) := do
  let c := c.dropWhile isGap
  let length := handleLength c.rest
  if length = 0 ∨ !(c.rest.drop length).head?.any isGap then none
  let name := c.rest.take length
  let (expansion, rest) ← readTagText true ((c.drop length).dropWhile isGap)
  if expansion.isEmpty || !endsWord rest.rest then none
  return (.handle name expansion, rest)

/-- A directive, at its percent sign, with the end of its line. -/
def readDirective (c : Cursor) : Option (Token × Cursor) := do
  let (name, c) := (c.drop 1).span isNameChar
  if name.isEmpty || !endsWord c.rest then none
  let (token, c) ← match String.ofList name with
    | "YAML" => readVersion c
    | "TAG" => readHandle c
    | _ => none
  let c := (c.dropWhile isGap).dropComment
  if endsLine c.rest then return (token, c.dropBreak) else none

end Partials.Yaml
