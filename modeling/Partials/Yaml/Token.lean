import Partials.Text

/-!
# Tokens of YAML

What a YAML text consists of. The starts and ends of blocks are not written; they follow from the
indentation.
-/

namespace Partials.Yaml

/-- How the text of a scalar is written. -/
inductive Style
  | plain
  | single
  | double
  | literal
  | folded
  deriving DecidableEq, Repr

inductive Token
  /-- The version that a document says it is written in. -/
  | version (major minor : Nat)
  /-- What a tag's handle stands for. -/
  | handle (name expansion : Text)
  | documentStart
  | documentEnd
  | blockSequenceStart
  | blockMappingStart
  | blockEnd
  | flowSequenceStart
  | flowSequenceEnd
  | flowMappingStart
  | flowMappingEnd
  | blockEntry
  | flowEntry
  | key
  | value
  | alias (name : Text)
  | anchor (name : Text)
  | tag (handle suffix : Text)
  | scalar (style : Style) (text : Text)
  deriving DecidableEq, Repr

end Partials.Yaml
