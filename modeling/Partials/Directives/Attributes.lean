import Partials.Directives.Words
import Partials.Json.Printer

/-!
# Attributes

The directives of a block as the `data-` attributes of its container. An attribute's value is the
JSON of the directive's value without the quotes at its ends and with its other double quotes made
single, so that it can stand between double quotes.
-/

namespace Partials.Directives

/-- The key under which a block's wrap is kept. -/
def wrapKey : Text := ['w', 'r', 'a', 'p']

def wrapBeforeKey : Text := wrapKey ++ ['-', 'b', 'e', 'f', 'o', 'r', 'e']

def wrapAfterKey : Text := wrapKey ++ ['-', 'a', 'f', 't', 'e', 'r']

def isQuote (c : Char) : Bool := c == '"' || c == '\''

/-- Drops a quote at the start and a quote at the end. -/
def stripQuotes (t : Text) : Text :=
  let t := match t with
    | c :: cs => if isQuote c then cs else c :: cs
    | [] => []
  match t.getLast? with
  | some c => if isQuote c then t.dropLast else t
  | none => t

/-- Turns double quotes into single ones; a backslash directly before one goes. -/
def singleQuotes : Text → Text
  | [] => []
  | '\\' :: '"' :: cs => '\'' :: singleQuotes cs
  | c :: cs => (if c = '"' then '\'' else c) :: singleQuotes cs

def attributeValue (r : Record) : Text := singleQuotes (stripQuotes r.compact)

/-- One attribute. -/
def attributeText (key : Text) (value : Record) : Text :=
  "data-".toList ++ key ++ ['=', '"'] ++ attributeValue value ++ ['"']

/-- The attributes of one entry. The block's wrap is not among them. -/
def entryAttributes : Text × Value → List Text
  | (key, value) =>
    match value with
    | .wrap _ => if key = wrapKey then [] else [attributeText key value.toRecord]
    | _ => [attributeText key value.toRecord]

/-- The two attributes of the block's wrap. -/
def wrapAttributes (pair : Wrap.Pair) : List Text :=
  [attributeText wrapBeforeKey (.text pair.before), attributeText wrapAfterKey (.text pair.after)]

/-- All attributes, one space apart: one for each entry in order, and those of the wrap at the
end. -/
def attributes (d : Directives) : Text :=
  let wraps := match d.get? wrapKey with
    | some (.wrap pair) => wrapAttributes pair
    | _ => []
  Text.join [' '] (d.entries.flatMap entryAttributes ++ wraps)

end Partials.Directives
