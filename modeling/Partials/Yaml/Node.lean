import Partials.Yaml.Token

/-!
# Nodes of YAML

The tree that the tokens of a document make. An alias holds the number of its anchor, and anchors
are numbered as they are met.
-/

namespace Partials.Yaml

/-- What may stand before a node. -/
structure Properties where
  anchor : Option Nat
  tag : Option Text
  deriving DecidableEq, Repr

inductive Node
  | alias (anchor : Nat)
  | scalar (properties : Properties) (style : Style) (text : Text)
  | sequence (properties : Properties) (items : List Node)
  | mapping (properties : Properties) (entries : List (Node × Node))
  deriving Repr, Inhabited

namespace Node

/-- A node that is left out. -/
def empty : Node := .scalar ⟨none, none⟩ .plain []

/-- The tokens that are left, the anchors met, and what the handles of tags stand for. -/
structure Source where
  tokens : List Token
  anchors : List (Text × Nat) := []
  handles : List (Text × Text) := []

abbrev Reading := StateT Source Option

namespace Reading

def peek : Reading (Option Token) := return (← get).tokens.head?

def advance : Reading Unit := modify fun s => { s with tokens := s.tokens.tail }

/-- Passes over the token if it comes next, and says whether it did. -/
def accept (t : Token) : Reading Bool := do
  if (← peek) == some t then
    advance
    return true
  else return false

/-- Whether the next token is one of the given ones. -/
def isNext (ts : List Token) : Reading Bool := do
  return match ← peek with
    | some t => ts.contains t
    | none => false

/-- The number of a new anchor: that of the names in use. An anchor that is set again gives its name
the number, and leaves the count of names as it was. -/
def setAnchor (name : Text) : Reading Nat := do
  let s ← get
  let number := s.anchors.length
  let others := s.anchors.filter (·.1 != name)
  set { s with anchors := others ++ [(name, number)] }
  return number

def anchor? : Reading (Option Text) := do
  match ← peek with
  | some (.anchor name) =>
    advance
    return some name
  | _ => return none

/-- A tag in full. A handle that stands for nothing is refused. -/
def tag? : Reading (Option Text) := do
  match ← peek with
  | some (.tag handle suffix) =>
    advance
    if handle = [] then return some suffix
    let some expansion := (← get).handles.lookup handle | failure
    return some (expansion ++ suffix)
  | _ => return none

/-- An anchor and a tag, in either order. -/
def properties : Reading Properties := do
  let first ← anchor?
  let tag ← tag?
  let second ← if first.isNone && tag.isSome then anchor? else pure none
  let anchor ← match first.or second with
    | some name => some <$> setAnchor name
    | none => pure none
  return ⟨anchor, tag⟩

/-- The tag of a scalar; a single mark says no more than no tag. -/
def scalarTag (tag : Option Text) : Option Text := if tag = some ['!'] then none else tag

mutual

/-- A node. Block collections are only allowed if `block`, and a sequence that is not indented only
if `indentless`. -/
def node (block indentless : Bool) : (fuel : Nat) → Reading Node
  | 0 => failure
  | fuel + 1 => do
    match ← peek with
    | some (.alias name) =>
      advance
      let some number := (← get).anchors.lookup name | failure
      return .alias number
    | _ =>
      let p ← properties
      match ← peek with
      | some (.scalar style text) =>
        advance
        return .scalar { p with tag := scalarTag p.tag } style text
      | some .flowSequenceStart =>
        advance
        return .sequence p (← flowItems true fuel)
      | some .flowMappingStart =>
        advance
        return .mapping p (← flowEntries true fuel)
      | next =>
        if indentless && next == some .blockEntry then
          return .sequence p (← indentlessItems fuel)
        else if block && next == some .blockSequenceStart then
          advance
          return .sequence p (← blockItems fuel)
        else if block && next == some .blockMappingStart then
          advance
          return .mapping p (← blockEntries fuel)
        else if p.anchor.isSome || p.tag.isSome then return .scalar p .plain []
        else failure

/-- A node of a block, or an empty one if one of the tokens comes next. -/
def blockNode (indentless : Bool) (stops : List Token) : (fuel : Nat) → Reading Node
  | 0 => failure
  | fuel + 1 => do
    if ← isNext stops then return .empty else node true indentless fuel

/-- A node of a flow collection, or an empty one if one of the tokens comes next. -/
def flowNode (stops : List Token) : (fuel : Nat) → Reading Node
  | 0 => failure
  | fuel + 1 => do
    if ← isNext stops then return .empty else node false false fuel

/-- The items of a block sequence, and its end. -/
def blockItems : (fuel : Nat) → Reading (List Node)
  | 0 => failure
  | fuel + 1 => do
    if ← accept .blockEntry then
      let item ← blockNode false [.blockEntry, .blockEnd] fuel
      return item :: (← blockItems fuel)
    else if ← accept .blockEnd then return []
    else failure

/-- The items of a sequence that is not indented. -/
def indentlessItems : (fuel : Nat) → Reading (List Node)
  | 0 => failure
  | fuel + 1 => do
    if ← accept .blockEntry then
      let item ← blockNode false [.blockEntry, .key, .value, .blockEnd] fuel
      return item :: (← indentlessItems fuel)
    else return []

/-- The entries of a block mapping, and its end. -/
def blockEntries : (fuel : Nat) → Reading (List (Node × Node))
  | 0 => failure
  | fuel + 1 => do
    let stops := [Token.key, .value, .blockEnd]
    if ← accept .key then
      let key ← blockNode true stops fuel
      let value ← if ← accept .value then blockNode true stops fuel else pure .empty
      return (key, value) :: (← blockEntries fuel)
    else if ← accept .blockEnd then return []
    else failure

/-- The items of a flow sequence from the `first` one or the comma before the next one on, and its
end. An entry of a mapping may stand for an item. -/
def flowItems (first : Bool) : (fuel : Nat) → Reading (List Node)
  | 0 => failure
  | fuel + 1 => do
    if ← accept .flowSequenceEnd then return []
    if !first then
      if !(← accept .flowEntry) then failure
    if ← accept .flowSequenceEnd then return []
    if ← accept .key then
      let stops := [Token.value, .flowEntry, .flowSequenceEnd]
      let missing ← isNext stops
      let key ← flowNode stops fuel
      -- the token that takes the place of a missing key is passed over
      if missing then advance
      let value ← if ← accept .value then flowNode [.flowEntry, .flowSequenceEnd] fuel
        else pure .empty
      return .mapping ⟨none, none⟩ [(key, value)] :: (← flowItems false fuel)
    else
      let item ← node false false fuel
      return item :: (← flowItems false fuel)

/-- The entries of a flow mapping from the `first` one or the comma before the next one on, and its
end. -/
def flowEntries (first : Bool) : (fuel : Nat) → Reading (List (Node × Node))
  | 0 => failure
  | fuel + 1 => do
    if ← accept .flowMappingEnd then return []
    if !first then
      if !(← accept .flowEntry) then failure
    if ← accept .flowMappingEnd then return []
    if ← accept .key then
      let key ← flowNode [.value, .flowEntry, .flowMappingEnd] fuel
      let value ← if ← accept .value then flowNode [.flowEntry, .flowMappingEnd] fuel
        else pure .empty
      return (key, value) :: (← flowEntries false fuel)
    else
      let key ← node false false fuel
      return (key, .empty) :: (← flowEntries false fuel)

end

/-- What the handles stand for unless a document says otherwise. -/
def standardHandles : List (Text × Text) :=
  [(['!'], ['!']), (['!', '!'], "tag:yaml.org,2002:".toList)]

/-- The directives of a document: at most one version, which has to be known, and handles without
repetition. -/
def directives : (fuel : Nat) → (version : Bool) → Reading Unit
  | 0, _ => failure
  | fuel + 1, version => do
    match ← peek with
    | some (.version major minor) =>
      advance
      if version || major ≠ 1 || (minor ≠ 1 && minor ≠ 2) then failure
      directives fuel true
    | some (.handle name expansion) =>
      advance
      if ((← get).handles.lookup name).isSome then failure
      modify fun s => { s with handles := s.handles ++ [(name, expansion)] }
      directives fuel version
    | _ => modify fun s => { s with handles := s.handles ++ standardHandles }

def isDirective : Token → Bool
  | .version .. | .handle .. => true
  | _ => false

/-- Passes over the ends of documents, behind which nothing may stand. -/
def noMore (tokens : List Token) : Bool := tokens.all (· == .documentEnd)

/-- The only document; none if the text has no token. -/
def document (fuel : Nat) : Reading (Option Node) := do
  match ← peek with
  | none => return none
  | some first =>
    directives fuel false
    let marked ← accept .documentStart
    if isDirective first && !marked then failure
    let next ← peek
    let isEmpty := marked &&
      (next.isNone || next == some .documentEnd || next == some .documentStart ||
        next.any isDirective)
    let root ← if isEmpty then pure .empty else node true false fuel
    if noMore (← get).tokens then return some root else failure

end Reading

/-- The root node of the only document of a text, if it has one. -/
def ofTokens? (tokens : List Token) : Option (Option Node) :=
  ((Reading.document (4 * tokens.length + 4)).run { tokens }).map Prod.fst

end Node

end Partials.Yaml
