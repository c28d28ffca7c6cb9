import Partials.Record
import Partials.Yaml.Quoted

/-!
# Writing YAML

A record as YAML in block style. Tables inside tables are indented by two columns, and lists inside
tables are not.
-/

namespace Partials.Yaml

/-- Magnitudes as in other texts; positive exponents have no sign. -/
def numberLayout : Decimal.Layout := ⟨some 16, some 5, false⟩

/-- Keys up to this many bytes are written before a colon; longer ones have a line of their own. -/
def keyLimit : Nat := 128

def isSimpleKey (key : Text) : Bool :=
  (Utf8.encode key).length ≤ keyLimit && !key.any isBreak

/-- The key and the mark of its value, at column `indent`. -/
def keyText (indent : Nat) (key : Text) : Text :=
  let written := quote (indent + 2) key
  if isSimpleKey key then written.dropLast ++ [':']
  else '?' :: ' ' :: written ++ spaces indent ++ [':']

mutual

/-- A value behind the mark of its key or item, with the end of its line. `indent` is the column of
the mark, and `inline` says whether a collection starts on the line of the mark. -/
def valueText (indent : Nat) (inline : Bool) : Record → Text
  | .flag b => ' ' :: (if b then "true".toList else "false".toList) ++ ['\n']
  | .text t => ' ' :: quote (indent + 2) t
  | .number n => ' ' :: n.textWith numberLayout ++ ['\n']
  | .list [] => " []\n".toList
  | .table [] => " \x7b\x7d\n".toList
  | .list (item :: items) =>
    if inline then ' ' :: (itemTexts (indent + 2) (item :: items)).drop (indent + 2)
    else '\n' :: itemTexts indent (item :: items)
  | .table (entry :: entries) =>
    if inline then ' ' :: (entryTexts (indent + 2) (entry :: entries)).drop (indent + 2)
    else '\n' :: entryTexts (indent + 2) (entry :: entries)

/-- The items of a list, each behind a hyphen at column `indent`. -/
def itemTexts (indent : Nat) : List Record → Text
  | [] => []
  | item :: items =>
    spaces indent ++ '-' :: valueText indent true item ++ itemTexts indent items

/-- The entries of a table, whose keys start at column `indent`. -/
def entryTexts (indent : Nat) : List (Text × Record) → Text
  | [] => []
  | (key, value) :: entries =>
    spaces indent ++ keyText indent key ++ valueText indent (!isSimpleKey key) value ++
      entryTexts indent entries

end

/-- The YAML text of a record. -/
def print : Record → Text
  | .table (entry :: entries) => entryTexts 0 (entry :: entries)
  | .list (item :: items) => itemTexts 0 (item :: items)
  | r => (valueText 0 false r).drop 1

end Partials.Yaml
