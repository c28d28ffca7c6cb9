import Partials.Checksum
import Partials.Directives.Attributes
import Partials.Margin
import Partials.Options
import Partials.Path
import Partials.Title

/-!
# Blocks

A block is a span of a document with everything derived from it: where it goes, what it is called,
its directives, and its text bare, inside its wrap (the view) and inside its container (the
template). `Block.ofSpan` makes a block or names the issue that keeps it out.
-/

namespace Partials

/-- Why a block, or a whole annotation, is left out of the inventory. Lines are those of opening
markers. -/
inductive Issue
  /-- The annotation names no destination. -/
  | missingDestination (line : Nat)
  /-- The annotation has no closing marker; `discarded` says whether its block was dropped. -/
  | unterminated (line : Nat) (discarded : Bool)
  /-- A block with the same identity was accepted before. -/
  | duplicate (line : Nat) (destination id : Text)
  /-- A different block took the destination before. -/
  | conflict (line : Nat) (destination : Text)
  /-- The destination leads out of the directory of partials. -/
  | unsafeDestination (line : Nat) (destination : Text)
  | invalidWrap (line : Nat) (cause : Wrap.Error)
  deriving DecidableEq, Repr

def Issue.message : Issue → Text
  | .missingDestination line =>
    "annotation at line ".toList ++ Decimal.digitsText line ++
      " has no extract destination".toList
  | .unterminated line _ =>
    "annotation at line ".toList ++ Decimal.digitsText line ++ " is never closed".toList
  | .duplicate line destination id =>
    "block at line ".toList ++ Decimal.digitsText line ++ " duplicates ".toList ++ destination ++
      " (".toList ++ id ++ [')']
  | .conflict line destination =>
    "block at line ".toList ++ Decimal.digitsText line ++ " targets ".toList ++ destination ++
      ", already taken by a different block".toList
  | .unsafeDestination line destination =>
    "annotation at line ".toList ++ Decimal.digitsText line ++ " targets ".toList ++ destination ++
      " outside the partials directory".toList
  | .invalidWrap line cause =>
    "annotation at line ".toList ++ Decimal.digitsText line ++ " has an invalid wrap: ".toList ++
      cause.message

def Issue.isDuplicate : Issue → Bool
  | .duplicate .. => true
  | _ => false

/-- An extracted block. -/
structure Block where
  /-- The checksum of what the block renders to and where it goes. -/
  id : Text
  name : Text
  category : Option Text
  group : Text
  brand : Text
  /-- The relative path of the partial. -/
  destination : Text
  filename : Text
  /-- The directory part of the written destination, with its slash. -/
  path : Text
  directives : Directives
  /-- The text without the margin of the page. -/
  content : Text
  /-- The content inside the wrap. -/
  view : Text
  /-- The content inside the container. -/
  template : Text
  /-- The document that holds the block. -/
  origin : Text
  deriving DecidableEq, Repr

def Block.toRecord (b : Block) : Record :=
  .table [
    ("id".toList, .text b.id),
    ("name".toList, .text b.name),
    ("category".toList, (b.category.map Record.text).getD (.flag false)),
    ("group".toList, .text b.group),
    ("brand".toList, .text b.brand),
    ("destination".toList, .text b.destination),
    ("filename".toList, .text b.filename),
    ("path".toList, .text b.path),
    ("options".toList, b.directives.toRecord),
    ("content".toList, .text b.content),
    ("view".toList, .text b.view),
    ("template".toList, .text b.template),
    ("origin".toList, .text b.origin)]

/-- Options whose wrap for views is already a pair. -/
structure Processor where
  options : Options
  viewWrap : Wrap.Pair
  deriving DecidableEq, Repr

/-- Fails where the wrap for views is no wrap. -/
def Processor.ofOptions (o : Options) : Except Wrap.Error Processor :=
  o.viewWrap.formalize.map fun pair => ⟨o, pair⟩

namespace Block

def nameKey : Text := ['n', 'a', 'm', 'e']

def categoryKey : Text := ['c', 'a', 't', 'e', 'g', 'o', 'r', 'y']

def brandKey : Text := ['b', 'r', 'a', 'n', 'd']

def groupKey : Text := ['g', 'r', 'o', 'u', 'p']

def idKey : Text := ['i', 'd']

/-- Where a block goes, in its parts. -/
structure Target where
  /-- The written destination. -/
  extract : Path
  filename : Text
  path : Text
  destination : Text
  deriving DecidableEq, Repr

def Target.of (flatten : Bool) (written : Text) : Target :=
  let extract := Path.ofText written
  let filename := extract.fileName?.getD extract.text
  let path := match Path.cutLast? '/' extract.text with
    | some (front, _) => front ++ ['/']
    | none => []
  ⟨extract, filename, path, if flatten then filename else extract.text⟩

/-- Sets `key` where it is absent and the default is not empty. -/
def applyDefault (d : Directives) (key default : Text) : Directives :=
  if d.contains key ∨ default = [] then d else d.insert key (.text default)

def applyDefaults (defaults : BlockDefaults) (d : Directives) : Directives :=
  let d := applyDefault d brandKey defaults.brand
  let d := applyDefault d groupKey defaults.group
  applyDefault d idKey defaults.id

/-- The wrap that the directives ask for, or the one of the options. -/
def wrapOf (p : Processor) (d : Directives) : Except Wrap.Error Wrap.Pair :=
  match d.get? Directives.wrapKey with
  | some value => value.wrapSpec.formalize
  | none => .ok p.viewWrap

/-- The content of a span without empty lines before it and blanks behind it. -/
def bodyOf (content : Text) : Text :=
  Text.trimEnd (content.dropWhile fun c => c == '\n' || c == '\r')

/-- The content inside the wrap: indented lines between its two sides, with an empty line on either
side of them. A wrap without a first side changes nothing. -/
def renderView (o : Options) (wrap : Wrap.Pair) (lines : List Text) : Text :=
  if wrap.before = [] then Text.join o.lineSeparator lines
  else
    Text.join o.lineSeparator
      ([wrap.before, []] ++ Margin.raise o.indent lines ++ [[], wrap.after])

/-- The content inside the container, in whose text the attributes stand for the placeholder. An
empty container changes nothing. -/
def renderTemplate (o : Options) (attributes : Text) (lines : List Text) : Text :=
  let fill := Text.replaceAll wrapDataPlaceholder attributes
  if o.templateWrap.isEmpty then Text.join o.lineSeparator lines
  else
    Text.join o.lineSeparator ([fill o.templateWrap.before] ++ lines ++ [fill o.templateWrap.after])

/-- The parts whose checksum is the identity of a block. -/
def identityParts (destination attributes content view template : Text) : List Text :=
  [destination, attributes, content, view, template]

/-- The block once its target and its wrap are known. -/
def assemble (o : Options) (origin content : Text) (target : Target) (d : Directives)
    (wrap : Wrap.Pair) : Block :=
  let name := (d.text? nameKey).getD
    (Title.ofText (target.extract.fileStem?.getD target.filename))
  let category := (d.text? categoryKey).or (target.extract.leadingDir?.map Title.ofText)
  let d := applyDefaults o.defaults d
  let brand := (d.text? brandKey).getD []
  let group := (d.text? groupKey).getD []
  let d := d.insert Directives.wrapKey (.wrap wrap)
  let lines := Margin.normalizeLines o.indent (bodyOf content)
  let content := Text.join o.lineSeparator lines
  let view := renderView o wrap lines
  let template := renderTemplate o d.attributes lines
  { id := Checksum.ofParts
      (identityParts target.destination d.attributes content view template)
    name, category, group, brand
    destination := target.destination
    filename := target.filename
    path := target.path
    directives := d
    content, view, template, origin }

/-- The block of a span, or what keeps it out: no destination, one that leads outside, or a wrap
that is none. -/
def ofSpan (p : Processor) (span : Span) (origin : Text) : Except Issue Block :=
  let d := Directives.parse span.label
  match d.destination? with
  | none => .error (.missingDestination span.startLine)
  | some written =>
    let target := Target.of p.options.flatten written
    if (Path.ofText target.destination).isContained then
      match wrapOf p (applyDefaults p.options.defaults d) with
      | .error cause => .error (.invalidWrap span.startLine cause)
      | .ok wrap => .ok (assemble p.options origin span.content target d wrap)
    else .error (.unsafeDestination span.startLine target.destination)

end Block

end Partials
