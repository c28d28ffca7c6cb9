import Partials.Block

/-!
# The inventory

Documents are fed to a builder one at a time. The first block with an identity is accepted and
handed to a sink; later ones with that identity are counted and reported. A destination belongs to
the first block that takes it, and a different block that aims at it is reported and skipped. A sink
that fails ends its document: the block is not accepted, and what was accepted before stays.
-/

namespace Partials

/-- A document and where it came from. -/
structure Document where
  origin : Text
  text : Text
  deriving DecidableEq, Repr

/-- What became of a document. -/
structure Report where
  origin : Text
  /-- The opening markers seen. -/
  annotations : Nat
  /-- The blocks accepted. -/
  added : Nat := 0
  duplicates : Nat := 0
  /-- What was left out, duplicates included, in the order found. -/
  issues : List Issue := []
  deriving DecidableEq, Repr

namespace Report

/-- The document has no opening marker. -/
def noAnnotations (r : Report) : Bool := r.annotations == 0

/-- What was left out for another reason than that it was there before. -/
def skipped (r : Report) : Nat := r.issues.length - r.duplicates

/-- The report with one more issue. -/
def note (r : Report) (issue : Issue) : Report :=
  { r with
    issues := r.issues ++ [issue]
    duplicates := if issue.isDuplicate then r.duplicates + 1 else r.duplicates }

def countAdded (r : Report) : Report := { r with added := r.added + 1 }

end Report

/-- Everything accepted in a run. -/
structure Inventory where
  options : Options
  items : List Block
  /-- The valid blocks, duplicates and conflicts included. -/
  totalCount : Nat
  uniqueCount : Nat
  deriving DecidableEq, Repr

def Inventory.toRecord (i : Inventory) : Record :=
  .table [
    ("options".toList, i.options.toRecord),
    ("items".toList, .list (i.items.map Block.toRecord)),
    ("totalCount".toList, .number (.integer i.totalCount)),
    ("uniqueCount".toList, .number (.integer i.uniqueCount))]

/-- Where accepted blocks go; a sink may refuse one. -/
abbrev Sink (m : Type → Type) (ε : Type) := Block → m (Except ε Unit)

/-- The sink that takes every block and keeps none. -/
def Sink.none {m : Type → Type} [Monad m] {ε : Type} : Sink m ε := fun _ => pure (.ok ())

/-- The state of a run. -/
structure Builder where
  processor : Processor
  /-- The identities of the accepted blocks. -/
  seen : List Text
  /-- The taken destinations, each with the identity of its block. -/
  owners : List (Text × Text)
  /-- The accepted blocks, in the order of acceptance. -/
  items : List Block
  /-- The valid blocks met so far. -/
  total : Nat
  deriving DecidableEq, Repr

namespace Builder

def ofProcessor (p : Processor) : Builder := ⟨p, [], [], [], 0⟩

/-- Fails where the wrap for views is no wrap. -/
def ofOptions (o : Options) : Except Wrap.Error Builder :=
  (Processor.ofOptions o).map ofProcessor

/-- What speaks against accepting a valid block. -/
def objection? (b : Builder) (line : Nat) (block : Block) : Option Issue :=
  if block.id ∈ b.seen then some (.duplicate line block.destination block.id)
  else if block.destination ∈ b.owners.map Prod.fst then some (.conflict line block.destination)
  else none

def accept (b : Builder) (block : Block) : Builder :=
  { b with
    seen := b.seen ++ [block.id]
    owners := b.owners ++ [(block.destination, block.id)]
    items := b.items ++ [block] }

def countValid (b : Builder) : Builder := { b with total := b.total + 1 }

variable {m : Type → Type} [Monad m] {ε : Type}

/-- Feeds the spans of a document, one after the other. -/
def addSpans (sink : Sink m ε) (origin : Text) :
    Builder → Report → List Span → m (Builder × Except ε Report)
  | b, r, [] => pure (b, .ok r)
  | b, r, span :: spans =>
    match Block.ofSpan b.processor span origin with
    | .error issue => addSpans sink origin b (r.note issue) spans
    | .ok block =>
      match b.objection? span.startLine block with
      | some issue => addSpans sink origin b.countValid (r.note issue) spans
      | none => do
        match ← sink block with
        | .ok () => addSpans sink origin (b.countValid.accept block) r.countAdded spans
        | .error e => pure (b.countValid, .error e)

/-- The report of a document before its spans are fed. -/
def openReport (policy : Policy) (document : Document) (scan : Scan) : Report :=
  match scan.unterminated with
  | none => { origin := document.origin, annotations := scan.spans.length }
  | some line =>
    let discarded := policy == .discard
    { origin := document.origin
      annotations := scan.spans.length + if discarded then 1 else 0
      issues := [.unterminated line discarded] }

/-- Feeds a document. -/
def addDocument (b : Builder) (sink : Sink m ε) (document : Document) :
    m (Builder × Except ε Report) :=
  let policy := b.processor.options.unterminated
  let scan := Scan.ofText policy document.text
  addSpans sink document.origin b (openReport policy document scan) scan.spans

def finish (b : Builder) : Inventory :=
  ⟨b.processor.options, b.items, b.total, b.items.length⟩

end Builder

end Partials
