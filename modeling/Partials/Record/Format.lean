import Partials.Path

/-!
# Record formats

The formats of record files, told apart by the extension of the path. The case of the extension does
not matter.
-/

namespace Partials

inductive Record.Format
  | toml
  | json
  | yaml
  deriving DecidableEq, Repr

namespace Record.Format

def name : Format → Text
  | toml => "TOML".toList
  | json => "JSON".toList
  | yaml => "YAML".toList

/-- The format of an extension. The names are ASCII, and no character beyond ASCII has one of their
letters as its lower case. -/
def ofExtension? (extension : Text) : Option Format :=
  let lower := extension.map Char.toLower
  if lower = "toml".toList then some toml
  else if lower = "json".toList then some json
  else if lower = "yaml".toList ∨ lower = "yml".toList then some yaml
  else none

end Record.Format

end Partials
