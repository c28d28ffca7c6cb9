import Partials.Directives
import Partials.Scan

/-!
# Options

The options of a run. Each has a default, and `Options.toRecord` is the record that a file of
options holds.
-/

namespace Partials

/-- Directive values for annotations that leave them out; an empty one is no value. -/
structure BlockDefaults where
  brand : Text := []
  group : Text := []
  id : Text := []
  deriving DecidableEq, Repr

/-- What a container's text says where the block's attributes go. -/
def wrapDataPlaceholder : Text := "\x7b\x7bwrapData\x7d\x7d".toList

/-- The container of a template unless the options say otherwise. -/
def defaultContainer : Wrap.Pair :=
  ⟨"<div class=\"partial\" ".toList ++ wrapDataPlaceholder ++ ['>'], "</div>".toList⟩

structure Options where
  /-- Stands for a tab in a margin, and for one level of indentation inside a wrap. -/
  indent : Text := [' ', ' ', ' ', ' ']
  /-- Whether a destination is reduced to its last name. -/
  flatten : Bool := false
  /-- Stands between the lines of a block. -/
  lineSeparator : Text := ['\n']
  /-- The container of a template. -/
  templateWrap : Wrap.Pair := defaultContainer
  /-- The wrap of a view whose annotation has none. -/
  viewWrap : Wrap.Spec := .text []
  unterminated : Policy := .discard
  defaults : BlockDefaults := {}
  /-- The directory in which relative documents are found. -/
  base : Text := ['.', '/']
  /-- The directory to which partials are written. -/
  partialsDir : Text := "partials/".toList
  /-- The file to which the inventory is written. -/
  storagePath : Text := "inventory.json".toList
  deriving DecidableEq, Repr

/-- The table of a wrap names only the sides that are present. -/
def Wrap.Spec.toRecord : Wrap.Spec → Record
  | .text t => .text t
  | .number n => .number n
  | .sequence items => Record.texts items
  | .fields before after =>
    .table ((before.map fun t => ("before".toList, Record.text t)).toList ++
      (after.map fun t => ("after".toList, Record.text t)).toList)

def Policy.name : Policy → Text
  | .discard => "discard".toList
  | .closeAtEnd => "close-at-end".toList

def BlockDefaults.toRecord (d : BlockDefaults) : Record :=
  .table [("brand".toList, .text d.brand), ("group".toList, .text d.group),
    ("id".toList, .text d.id)]

def Options.toRecord (o : Options) : Record :=
  .table [
    ("indent".toList, .text o.indent),
    ("flatten".toList, .flag o.flatten),
    ("lineSeparator".toList, .text o.lineSeparator),
    ("templateWrap".toList, o.templateWrap.toRecord),
    ("viewWrap".toList, o.viewWrap.toRecord),
    ("unterminated".toList, .text o.unterminated.name),
    ("defaults".toList, o.defaults.toRecord),
    ("base".toList, .text o.base),
    ("partialsDir".toList, .text o.partialsDir),
    ("storagePath".toList, .text o.storagePath)]

end Partials
