import Partials.Command
import Partials.Sink
import Partials.Store

/-!
# Runs

A run reads its options, feeds its documents to one builder in their order, writes each partial as
its block is accepted, and saves the inventory at the end. A dry run writes nothing.
-/

namespace Partials

/-- Why a run ends early. -/
inductive RunError
  /-- The wrap for views is no wrap. -/
  | wrap (cause : Wrap.Error)
  /-- A partial cannot be written. -/
  | sink (cause : FileError)
  /-- Another file cannot be read or written. -/
  | file (cause : FileError)
  deriving DecidableEq, Repr

/-- What is said about a sink that fails. -/
def Sink.failureMessage (cause : FileError) : Text := "Filesystem error: ".toList ++ cause.message

def RunError.message : RunError → Text
  | .wrap cause => cause.message
  | .sink cause => Sink.failureMessage cause
  | .file cause => cause.message

/-- What a run did. -/
structure Summary where
  reports : List Report
  inventory : Inventory
  partialsDir : Path
  storagePath : Path
  dryRun : Bool
  deriving DecidableEq, Repr

namespace Run

def isAbsolute (t : Text) : Bool := t.head? == some '/'

/-- A configured place, seen from the working directory. -/
def location (cwd t : Text) : Path :=
  if isAbsolute t then Path.ofText t else (Path.ofText cwd).join t

/-- Where a document is read; a relative one is found in `base`. -/
def documentPath (base : Path) (file : Text) : Path :=
  if isAbsolute file then Path.ofText file else base.join (Path.ofText file).text

variable {m : Type → Type} [Monad m]

def onFile {α : Type} (action : ExceptT FileError m α) : ExceptT RunError m α :=
  action.adapt RunError.file

/-- Reads a document and feeds it to the builder. -/
def addFile (disk : Disk m) (sink : Sink m FileError) (base : Path) (b : Builder) (file : Text) :
    ExceptT RunError m (Builder × Report) := do
  let text ← onFile (Files.readText disk (documentPath base file))
  let (b, outcome) ← (b.addDocument sink ⟨(Path.ofText file).text, text⟩ : m _)
  match outcome with
  | .ok report => return (b, report)
  | .error e => throw (.sink e)

/-- Reads and feeds the documents, one after the other. -/
def addFiles (disk : Disk m) (sink : Sink m FileError) (base : Path) :
    Builder → List Text → ExceptT RunError m (Builder × List Report)
  | b, [] => return (b, [])
  | b, file :: files => do
    let (b, report) ← addFile disk sink base b file
    let (b, reports) ← addFiles disk sink base b files
    return (b, report :: reports)

/-- Runs over the files in their order. -/
def execute (disk : Disk m) (tag cwd : Text) (options : Options) (files : List Text)
    (dryRun : Bool) : ExceptT RunError m Summary := do
  let partialsDir := location cwd options.partialsDir
  let storagePath := location cwd options.storagePath
  let b ← match Builder.ofOptions options with
    | .ok b => pure b
    | .error e => throw (.wrap e)
  let sink := if dryRun then Sink.none else Sink.directory disk tag partialsDir
  let (b, reports) ← addFiles disk sink (location cwd options.base) b files
  let inventory := b.finish
  if !dryRun then
    onFile (Store.save disk tag storagePath inventory.toRecord)
  return { reports, inventory, partialsDir, storagePath, dryRun }

end Run

namespace Command

/-- The file of options that is used without being asked for, if it is there. -/
def implicitConfig : Text := "partial-extract.toml".toList

/-- The options with the settings of the command in place of their own. -/
def override (c : Command) (o : Options) : Options :=
  { o with
    flatten := o.flatten || c.flatten
    indent := c.indent.getD o.indent
    base := c.base.getD o.base
    partialsDir := c.partialsDir.getD o.partialsDir
    storagePath := c.storage.getD o.storagePath
    unterminated := if c.closeUnterminated then .closeAtEnd else o.unterminated }

variable {m : Type → Type} [Monad m]

/-- The file of options for a command, if there is one. -/
def configPath (c : Command) (disk : Disk m) (cwd : Text) : m (Option Path) :=
  match c.config with
  | some path => pure (some (Path.ofText path))
  | none => do
    let candidate := (Path.ofText cwd).join implicitConfig
    return if ← Files.isPresent disk candidate then some candidate else none

/-- The options of a command. -/
def options (c : Command) (disk : Disk m) (cwd : Text) : ExceptT FileError m Options := do
  match ← (c.configPath disk cwd : m _) with
  | some path => return c.override (← Store.load disk path Options.ofDatum?)
  | none => return c.override {}

/-- Does what the command asks for. -/
def run (c : Command) (disk : Disk m) (tag cwd : Text) : ExceptT RunError m Summary := do
  let options ← Run.onFile (c.options disk cwd)
  Run.execute disk tag cwd options c.files c.dryRun

end Command

namespace Report

/-- The lines about a document. -/
def lines (r : Report) : List Text :=
  if r.noAnnotations then ["-- No extraction blocks found in ".toList ++ r.origin]
  else
    ("=> ".toList ++ r.origin ++ ": ".toList ++ Decimal.digitsText r.added ++ " added, ".toList ++
        Decimal.digitsText r.duplicates ++ " duplicate(s), ".toList ++
        Decimal.digitsText r.skipped ++ " skipped".toList) ::
      r.issues.map fun issue => "   ! ".toList ++ issue.message

end Report

namespace Summary

def totals (s : Summary) : Text :=
  "OK ".toList ++ Decimal.digitsText s.inventory.uniqueCount ++ " unique of ".toList ++
    Decimal.digitsText s.inventory.totalCount ++ " block(s)".toList

/-- Where the results are. -/
def places (s : Summary) : List Text :=
  if s.dryRun then ["Dry run: nothing written.".toList]
  else
    ["   Partials:  ".toList ++ s.partialsDir.text, "   Inventory: ".toList ++ s.storagePath.text]

/-- What a run says about itself. -/
def text (s : Summary) : Text :=
  (s.reports.flatMap Report.lines ++ [] :: s.totals :: s.places).flatMap fun line =>
    line ++ ['\n']

end Summary

/-- What is said about a run that ended early. -/
def RunError.text (e : RunError) : Text := "error: ".toList ++ e.message ++ ['\n']

end Partials
