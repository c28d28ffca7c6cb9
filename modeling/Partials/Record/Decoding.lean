import Partials.Options
import Partials.Record.Datum

/-!
# Reading records

Options and wraps as a file's data. A table gives its values by name, in any order; names that are
not known are passed over, and values that are left out have defaults. A known name may not be given
twice.
-/

namespace Partials

/-- Where formats differ in how they spell a record. -/
structure Record.Rules where
  /-- Whether a table may be written as the list of its values in their order. -/
  listsAsTables : Bool
  /-- Whether such a list may hold more values than the table has. -/
  surplus : Bool
  /-- What may stand behind a name that is written as the only key of a table. -/
  isPayload : Datum → Bool

namespace Record

/-- The values of a table by name, for those of `names` that it gives. -/
def fields? (rules : Rules) (names : List Text) : Datum → Option (List (Text × Datum))
  | .table _ entries => do
    let keyed ← entries.mapM fun (key, value) => return (← key.text?, value)
    let known := keyed.filter fun (key, _) => names.contains key
    if (known.map Prod.fst).Nodup then some known else none
  | .list _ items =>
    if rules.listsAsTables && (rules.surplus || items.length ≤ names.length) then
      some (names.zip items)
    else none
  | .scalar s => if s.isEmptyTable then some [] else none
  | .unreadable => none

/-- The value of a name as `read` understands it; the default if the table does not give it. -/
def field {α : Type} (fields : List (Text × Datum)) (name : Text) (read : Datum → Option α)
    (default : α) : Option α :=
  match fields.lookup name with
  | none => some default
  | some value => read value

/-- One of several names: as a text, or as the only key of a table. -/
def choice? (rules : Rules) : Datum → Option Text
  | .scalar s => s.choice?
  | .table _ [(key, payload)] => if rules.isPayload payload then key.text? else none
  | _ => none

end Record

open Record (Rules fields? field choice?)

def Policy.ofName? (name : Text) : Option Policy :=
  if name = discard.name then some discard
  else if name = closeAtEnd.name then some closeAtEnd
  else none

def Policy.ofDatum? (rules : Rules) (d : Datum) : Option Policy :=
  (choice? rules d).bind ofName?

def BlockDefaults.names : List Text := ["brand".toList, "group".toList, "id".toList]

def BlockDefaults.ofDatum? (rules : Rules) (d : Datum) : Option BlockDefaults := do
  let fields ← fields? rules names d
  let brand ← field fields "brand".toList Datum.text? []
  let group ← field fields "group".toList Datum.text? []
  let id ← field fields "id".toList Datum.text? []
  return ⟨brand, group, id⟩

namespace Wrap

def beforeKey : Text := ['b', 'e', 'f', 'o', 'r', 'e']

def afterKey : Text := ['a', 'f', 't', 'e', 'r']

/-- A pair as a table, in which a missing side is empty. -/
def Pair.ofDatum? (rules : Rules) (d : Datum) : Option Pair := do
  let fields ← fields? rules [beforeKey, afterKey] d
  let before ← field fields beforeKey Datum.text? []
  let after ← field fields afterKey Datum.text? []
  return ⟨before, after⟩

/-- A text that nothing asks to be one. -/
def plainText? (d : Datum) : Option Text :=
  match d.any? with
  | some (.text t) => some t
  | _ => none

/-- A side of a table: a text, or null for a side that is absent. -/
def side? (d : Datum) : Option (Option Text) :=
  match d.any? with
  | some (.text t) => some (some t)
  | some .null => some none
  | _ => none

/-- The name of a side, or its place. -/
def sideKey? (d : Datum) : Option Text :=
  match d.any? with
  | some (.text t) => if t = beforeKey ∨ t = afterKey then some t else none
  | some (.number (.integer 0)) => some beforeKey
  | some (.number (.integer 1)) => some afterKey
  | _ => none

/-- A wrap in any of its shapes. The first one that fits is taken: a text, a number, a list of
texts, a table of the two sides, the list of the two sides. -/
def Spec.ofDatum? : Datum → Option Spec
  | .scalar s =>
    match s.any? with
    | some (.text t) => some (.text t)
    | some (.number n) => some (.number n)
    | _ => none
  | .list false items =>
    match items.mapM plainText?, items.mapM side? with
    | some texts, _ => some (.sequence texts)
    | none, some [before] => some (.fields before none)
    | none, some [before, after] => some (.fields before after)
    | none, _ => none
  | .table false entries => do
    let sides ← entries.mapM fun (key, value) => return (← sideKey? key, ← side? value)
    if (sides.map Prod.fst).Nodup then
      some (.fields (sides.lookup beforeKey).join (sides.lookup afterKey).join)
    else none
  | _ => none

end Wrap

def Options.names : List Text :=
  ["indent".toList, "flatten".toList, "lineSeparator".toList, "templateWrap".toList,
    "viewWrap".toList, "unterminated".toList, "defaults".toList, "base".toList,
    "partialsDir".toList, "storagePath".toList]

def Options.ofDatum? (rules : Rules) (d : Datum) : Option Options := do
  let fields ← fields? rules names d
  let standard : Options := {}
  let indent ← field fields "indent".toList Datum.text? standard.indent
  let flatten ← field fields "flatten".toList Datum.flag? standard.flatten
  let lineSeparator ← field fields "lineSeparator".toList Datum.text? standard.lineSeparator
  let templateWrap ←
    field fields "templateWrap".toList (Wrap.Pair.ofDatum? rules) standard.templateWrap
  let viewWrap ← field fields "viewWrap".toList Wrap.Spec.ofDatum? standard.viewWrap
  let unterminated ←
    field fields "unterminated".toList (Policy.ofDatum? rules) standard.unterminated
  let defaults ← field fields "defaults".toList (BlockDefaults.ofDatum? rules) standard.defaults
  let base ← field fields "base".toList Datum.text? standard.base
  let partialsDir ← field fields "partialsDir".toList Datum.text? standard.partialsDir
  let storagePath ← field fields "storagePath".toList Datum.text? standard.storagePath
  return { indent, flatten, lineSeparator, templateWrap, viewWrap, unterminated, defaults, base,
           partialsDir, storagePath }

end Partials
