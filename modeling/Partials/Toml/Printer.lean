import Partials.Record
import Partials.Toml.Quoted

/-!
# Writing TOML

A table as a TOML document: first the values of the root, then a section with a header for each
table and each element of a list of tables, from the outside in. A table that holds only tables
needs no header of its own.
-/

namespace Partials.Toml

/-- Numbers are written without exponent. -/
def numberLayout : Decimal.Layout := ⟨none, none, false⟩

/-- A list with at least one item and only tables. -/
def isSections : Record → Bool
  | .list (item :: items) => (item :: items).all Record.isTable
  | _ => false

/-- What has headers of its own, rather than a key with a value. -/
def hasHeader (r : Record) : Bool := r.isTable || isSections r

def keyText (key : Text) : Text :=
  if key ≠ [] ∧ key.all isBareChar then key else '"' :: escape false 0 key ++ ['"']

def pathText (path : List Text) : Text := Text.join ['.'] (path.map keyText)

/-- Items on one line up to a single one, and on a line each from two on. -/
def arrayText : List Text → Text
  | [] => ['[', ']']
  | [item] => '[' :: item ++ [']']
  | items => '[' :: items.flatMap (fun item => "\n    ".toList ++ item ++ [',']) ++ ['\n', ']']

mutual

/-- A value behind its key. -/
def valueText : Record → Text
  | .flag b => if b then "true".toList else "false".toList
  | .text t => quote t
  | .number n => n.textWith numberLayout
  | .list items => arrayText (valueTexts items)
  | .table entries => "\x7b ".toList ++ Text.join [',', ' '] (inlineTexts entries) ++ " \x7d".toList

def valueTexts : List Record → List Text
  | [] => []
  | item :: items => valueText item :: valueTexts items

def inlineTexts : List (Text × Record) → List Text
  | [] => []
  | (key, value) :: entries =>
    (keyText key ++ " = ".toList ++ valueText value) :: inlineTexts entries

end

/-- The lines of the values that a table holds itself. -/
def bodyText : List (Text × Record) → Text
  | [] => []
  | (key, value) :: entries =>
    if hasHeader value then bodyText entries
    else keyText key ++ " = ".toList ++ valueText value ++ ['\n'] ++ bodyText entries

/-- The section of a table, if it needs one. -/
def tableSection (path : List Text) (entries : List (Text × Record)) : List Text :=
  if entries = [] ∨ !entries.all (fun (_, value) => hasHeader value) then
    [('[' :: pathText path ++ [']', '\n']) ++ bodyText entries]
  else []

mutual

/-- The sections of a value at `path`. -/
def sections (path : List Text) : Record → List Text
  | .table entries => tableSection path entries ++ entrySections path entries
  | .list items => elementSections path items
  | _ => []

def entrySections (path : List Text) : List (Text × Record) → List Text
  | [] => []
  | (key, value) :: entries =>
    (if hasHeader value then sections (path ++ [key]) value else []) ++ entrySections path entries

def elementSections (path : List Text) : List Record → List Text
  | [] => []
  | item :: items => elementSection path item ++ elementSections path items

def elementSection (path : List Text) : Record → List Text
  | .table entries =>
    (("[[".toList ++ pathText path ++ "]]\n".toList) ++ bodyText entries) ::
      entrySections path entries
  | _ => []

end

/-- Integers have 64 bits with sign. -/
def fits : Number → Bool
  | .integer n => -(Int.pow 2 63) ≤ n && n < Int.pow 2 63
  | .float _ => true

mutual

/-- Whether all numbers of a record are in range. -/
def isExpressible : Record → Bool
  | .number n => fits n
  | .list items => areExpressible items
  | .table entries => entriesExpressible entries
  | _ => true

def areExpressible : List Record → Bool
  | [] => true
  | item :: items => isExpressible item && areExpressible items

def entriesExpressible : List (Text × Record) → Bool
  | [] => true
  | (_, value) :: entries => isExpressible value && entriesExpressible entries

end

/-- The sections of a document, with an empty line between them. -/
def documentText (entries : List (Text × Record)) : Text :=
  let root := bodyText entries
  Text.join ['\n'] ((if root = [] then [] else [root]) ++ entrySections [] entries)

/-- The TOML text of a table whose numbers are in range. -/
def print? : Record → Option Text
  | .table entries => if entriesExpressible entries then some (documentText entries) else none
  | _ => none

end Partials.Toml
