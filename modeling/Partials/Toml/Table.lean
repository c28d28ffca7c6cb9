import Partials.Record.Datum

/-!
# Building TOML tables

A TOML document names its tables piecemeal, by headers and by dotted keys. Which pieces may meet
depends on how a table came about, so tables under construction remember it; a finished one is a
datum.
-/

namespace Partials.Toml

/-- What a key of a table under construction holds. -/
inductive Item
  | value (d : Datum)
  /-- A table. It is implied if only longer keys have named it so far, and dotted if they were keys
  of values. -/
  | table (implied dotted : Bool) (entries : List (Text × Item))
  /-- The tables of an array, which headers in double brackets add to. -/
  | tables (elements : List (List (Text × Item)))
  deriving Inhabited

/-- A table under construction. -/
abbrev Entries := List (Text × Item)

namespace Entries

/-- Replaces the item of `key`, or adds one at the end. -/
def put (key : Text) (item : Item) : Entries → Entries
  | [] => [(key, item)]
  | (k, i) :: entries => if k = key then (k, item) :: entries else (k, i) :: put key item entries

def erase (key : Text) (entries : Entries) : Entries := entries.filter (·.1 != key)

/-- Changes the table that a path leads to by `f`, which also learns whether that table is dotted.
Missing tables on the way are implied; an array is entered at its last element. A key of values
enters only tables that are implied. -/
def within {α : Type} (ofValues : Bool) (f : Bool → Entries → Option (α × Entries)) :
    (path : List Text) → (dotted : Bool) → Entries → Option (α × Entries)
  | [], dotted, entries => f dotted entries
  | key :: path, _, entries =>
    match entries.lookup key with
    | none => do
      let (a, inner) ← within ofValues f path ofValues []
      return (a, entries.put key (.table true ofValues inner))
    | some (.table implied dotted inner) =>
      if ofValues && !implied then none
      else do
        let (a, inner) ← within ofValues f path dotted inner
        return (a, entries.put key (.table implied dotted inner))
    | some (.tables elements) => do
      let (a, last) ← within ofValues f path false (elements.getLastD [])
      return (a, entries.put key (.tables (elements.dropLast ++ [last])))
    | some (.value _) => none

/-- Adds a value under a dotted key, given by its last part and the parts before it. Only dotted
keys of the same table may have named the tables between. -/
def insert (path : List Text) (key : Text) (d : Datum) (entries : Entries) : Option Entries :=
  let add (dotted : Bool) (entries : Entries) : Option (Unit × Entries) :=
    if dotted == path.isEmpty then none
    else if (entries.lookup key).isSome then none
    else some ((), entries.put key (.value d))
  (within true add path false entries).map Prod.snd

/-- Takes out the table that a header opens: a new one, or one that was only implied by headers. -/
def takeTable (path : List Text) (key : Text) (entries : Entries) : Option (Entries × Entries) :=
  let take (_ : Bool) (entries : Entries) : Option (Entries × Entries) :=
    match entries.lookup key with
    | none => some ([], entries)
    | some (.table true false inner) => some (inner, entries.erase key)
    | some _ => none
  within false take path false entries

/-- Puts a finished table where its header says. -/
def putTable (path : List Text) (key : Text) (entries table : Entries) : Option Entries :=
  let add (_ : Bool) (entries : Entries) : Option (Unit × Entries) :=
    if (entries.lookup key).isSome then none
    else some ((), entries.put key (.table false false table))
  (within false add path false entries).map Prod.snd

/-- Adds a finished table to the array of its header. -/
def pushTable (path : List Text) (key : Text) (entries table : Entries) : Option Entries :=
  let add (_ : Bool) (entries : Entries) : Option (Unit × Entries) :=
    match entries.lookup key with
    | none => some ((), entries.put key (.tables [table]))
    | some (.tables elements) => some ((), entries.put key (.tables (elements ++ [table])))
    | some _ => none
  (within false add path false entries).map Prod.snd

end Entries

mutual

def Item.toDatum : Item → Datum
  | .value d => d
  | .table _ _ entries => .table false (Item.entriesToData entries)
  | .tables elements => .list false (Item.elementsToData elements)

def Item.entriesToData : List (Text × Item) → List (Datum × Datum)
  | [] => []
  | (key, item) :: entries => (.text key, item.toDatum) :: Item.entriesToData entries

def Item.elementsToData : List (List (Text × Item)) → List Datum
  | [] => []
  | element :: elements => .table false (Item.entriesToData element) :: Item.elementsToData elements

end

def Entries.toDatum (entries : Entries) : Datum := .table false (Item.entriesToData entries)

/-- The table of an inline table's keys and values. -/
def Entries.ofPairs? (pairs : List ((List Text × Text) × Datum)) : Option Entries :=
  pairs.foldlM (fun entries ((path, key), d) => entries.insert path key d) []

/-- A header names a table, or a new element of an array of tables. -/
inductive Header
  | table (path : List Text) (key : Text)
  | element (path : List Text) (key : Text)

/-- What a line of a document says. -/
inductive Statement
  | header (h : Header)
  | pair (path : List Text) (key : Text) (d : Datum)

/-- A document under construction: the tables that are finished, and the table whose lines are being
read; the first lines belong to the root. -/
structure Draft where
  root : Entries
  header : Option Header
  entries : Entries

namespace Draft

def empty : Draft := ⟨[], none, []⟩

/-- The root with the open table in its place. -/
def close (d : Draft) : Option Entries :=
  match d.header with
  | none => some d.entries
  | some (.table path key) => d.root.putTable path key d.entries
  | some (.element path key) => d.root.pushTable path key d.entries

/-- The draft with one more line. -/
def add (d : Draft) : Statement → Option Draft
  | .pair path key value => do
    return { d with entries := ← d.entries.insert path key value }
  | .header (.table path key) => do
    let (entries, root) ← (← d.close).takeTable path key
    return ⟨root, some (.table path key), entries⟩
  | .header (.element path key) => do
    return ⟨← d.close, some (.element path key), []⟩

end Draft

/-- The root table of a document. -/
def document? (statements : List Statement) : Option Datum := do
  let draft ← statements.foldlM Draft.add Draft.empty
  return (← draft.close).toDatum

end Partials.Toml
