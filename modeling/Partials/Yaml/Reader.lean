import Partials.Record.Decoding
import Partials.Yaml.Meaning
import Partials.Yaml.Node
import Partials.Yaml.Token.Stream

/-!
# Reading YAML

A YAML text as data: its only document, in which aliases stand for the nodes of their anchors. A
text without any node is an empty table.
-/

namespace Partials.Yaml

def coreTag (name : String) : Text := "tag:yaml.org,2002:".toList ++ name.toList

/-- The name of a type of the document's own. -/
def localTag? (tag : Option Text) : Option Text :=
  match tag with
  | some ['!'] => some ['!']
  | some ('!' :: name) => some name
  | _ => none

/-- What a tagged scalar is where nothing else says what it should be. -/
def taggedUntyped? (tag t : Text) : Option Untyped :=
  if tag = coreTag "bool" then (flag? t).map .flag
  else if tag = coreTag "int" then do
    let n ← integer? t
    match IntegerRange.of n with
    | .usable => some (.number (.integer n))
    | _ => none
  else if tag = coreTag "float" then (real? t).bind Real.untyped?
  else if tag = coreTag "null" then if isNull t then some .null else none
  else if (localTag? (some tag)).isSome then none
  else some (.text t)

/-- What a scalar stands for. Any scalar is a text where one is wanted. -/
def scalarOf (tag : Option Text) (style : Style) (t : Text) : Scalar where
  text? := some t
  flag? :=
    if style = .plain ∨ (style = .literal ∧ tag = some (coreTag "bool")) then flag? t else none
  choice? :=
    match localTag? tag with
    | some name => if style = .plain ∧ (t.isEmpty ∨ isNull t) then some name else none
    | none => some t
  any? :=
    match tag with
    | some tag => taggedUntyped? tag t
    | none => if style = .plain then untyped? t else some (.text t)
  isEmptyTable := style = .plain ∧ t.isEmpty

mutual

/-- The datum of a node, in which `known` gives the data of anchors. -/
def Node.toDatum (known : List (Nat × Datum)) : Node → Datum
  | .alias anchor => (known.lookup anchor).getD .unreadable
  | .scalar p style t => .scalar (scalarOf p.tag style t)
  | .sequence p items => .list (localTag? p.tag).isSome (Node.itemsToData known items)
  | .mapping p entries => .table (localTag? p.tag).isSome (Node.entriesToData known entries)

def Node.itemsToData (known : List (Nat × Datum)) : List Node → List Datum
  | [] => []
  | item :: items => item.toDatum known :: Node.itemsToData known items

def Node.entriesToData (known : List (Nat × Datum)) : List (Node × Node) → List (Datum × Datum)
  | [] => []
  | (key, value) :: entries =>
    (key.toDatum known, value.toDatum known) :: Node.entriesToData known entries

end

/-- The node with its anchor, if it has one. -/
def Properties.anchored (p : Properties) (n : Node) : List (Nat × Node) :=
  (p.anchor.map fun anchor => (anchor, n)).toList

mutual

/-- The nodes with anchors, in the order of their starts. -/
def Node.anchored : Node → List (Nat × Node)
  | .alias _ => []
  | .scalar p style t => p.anchored (.scalar p style t)
  | .sequence p items => p.anchored (.sequence p items) ++ Node.itemsAnchored items
  | .mapping p entries => p.anchored (.mapping p entries) ++ Node.entriesAnchored entries

def Node.itemsAnchored : List Node → List (Nat × Node)
  | [] => []
  | item :: items => item.anchored ++ Node.itemsAnchored items

def Node.entriesAnchored : List (Node × Node) → List (Nat × Node)
  | [] => []
  | (key, value) :: entries =>
    key.anchored ++ value.anchored ++ Node.entriesAnchored entries

end

/-- The data of the anchors, for aliases nested `depth` deep. Of two nodes with one number the later
one counts. -/
def anchorData (nodes : List (Nat × Node)) : (depth : Nat) → List (Nat × Datum)
  | 0 => []
  | depth + 1 =>
    let known := anchorData nodes depth
    nodes.map fun (anchor, n) => (anchor, n.toDatum known)

/-- The datum of a root node. There are at most as many aliases inside each other as there are
anchors, save where a node contains itself. -/
def Node.rootDatum (root : Node) : Datum :=
  let nodes := root.anchored.reverse
  root.toDatum (anchorData nodes (nodes.length + 1))

/-- The only document of a YAML text. -/
def read? (t : Text) : Option Datum := do
  let root ← Node.ofTokens? (← Token.ofText? t)
  return (root.map Node.rootDatum).getD (.table false [])

/-- Tables are not written as lists, and names not as keys of tables. -/
def rules : Record.Rules where
  listsAsTables := false
  surplus := false
  isPayload _ := false

end Partials.Yaml
