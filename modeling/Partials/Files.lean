import Partials.Disk
import Partials.Path.Native
import Partials.Record.Format
import Partials.Text.Printable

/-!
# Files

Reading texts, and writing them in one step: the text goes to a new file beside the target, which is
then moved onto it, so that the target holds either its old text or all of the new one.
-/

namespace Partials

/-- Why a file cannot be read or written. -/
inductive FileError
  | io (path : Text) (cause : OsError)
  /-- A record file in no known format. -/
  | unsupportedFormat (extension : Text)
  /-- A destination that leads out of its directory. -/
  | pathEscape (path : Text)
  /-- A file that does not hold the record it should hold. -/
  | malformedRecord (format : Record.Format) (path : Text)
  /-- A record that its format cannot express. -/
  | inexpressibleRecord (format : Record.Format) (path : Text)
  deriving DecidableEq, Repr

namespace FileError

/-- What went wrong, and where. -/
def headline : FileError → Text
  | io path _ => "I/O error at ".toList ++ path
  | unsupportedFormat _ => "Unsupported record format".toList
  | pathEscape _ => "Path escapes its root directory".toList
  | malformedRecord format path =>
    "Failed to parse ".toList ++ format.name ++ " record at ".toList ++ path
  | inexpressibleRecord format path =>
    "Failed to serialize ".toList ++ format.name ++ " record for ".toList ++ path

def detail : FileError → Text
  | io _ cause => cause.message
  | unsupportedFormat extension => showText extension
  | pathEscape path => path
  | malformedRecord _ _ => "not the expected record".toList
  | inexpressibleRecord _ _ => "value out of range".toList

def message (e : FileError) : Text := e.headline ++ ": ".toList ++ e.detail

end FileError

namespace Files

variable {m : Type → Type} [Monad m]

/-- An operation on a path, whose failure names the path. -/
def onPath {α : Type} (path : Text) (operation : m (Except OsError α)) : ExceptT FileError m α :=
  ExceptT.mk do return (← operation).mapError (FileError.io path)

/-- Makes the first of the directories, after those above it that are missing. A directory that is
there already is no failure. -/
def makeDirectories (disk : Disk m) : (path : List Text) → m (Except OsError Unit)
  | [] => pure (.ok ())
  | directory :: above => do
    match ← disk.makeDirectory directory with
    | .ok () => pure (.ok ())
    | .error .notFound =>
      match ← makeDirectories disk above with
      | .ok () => make directory
      | .error e => pure (.error e)
    | .error e => settle directory e
where
  settle (directory : Text) (e : OsError) : m (Except OsError Unit) := do
    return if ← disk.isDirectory directory then .ok () else .error e
  make (directory : Text) : m (Except OsError Unit) := do
    match ← disk.makeDirectory directory with
    | .ok () => pure (.ok ())
    | .error e => settle directory e

/-- The name of the file beside the target that is written first; `tag` tells runs apart. -/
def temporaryName (tag target : Text) : Text :=
  '.' :: (Path.Native.fileName? target).getD [] ++ '.' :: tag ++ ".tmp".toList

/-- Where the text of `target` is written first. -/
def temporaryPath (tag target : Text) : Text :=
  Path.Native.withFileName target (temporaryName tag target)

/-- Writes the bytes to the path in one step. Missing directories above it are made. -/
def writeAtomic (disk : Disk m) (tag : Text) (path : Path) (bytes : Utf8.Bytes) :
    ExceptT FileError m Unit := do
  match Path.Native.parent? path.text with
  | some (c :: cs) =>
    onPath (c :: cs) (makeDirectories disk (Path.Native.ancestors (c :: cs)))
  | _ => pure ()
  let temporary := temporaryPath tag path.text
  onPath temporary (disk.create temporary bytes)
  onPath path.text (disk.rename temporary path.text)

def writeText (disk : Disk m) (tag : Text) (path : Path) (t : Text) : ExceptT FileError m Unit :=
  writeAtomic disk tag path (Utf8.encode t)

def readText (disk : Disk m) (path : Path) : ExceptT FileError m Text :=
  onPath path.text do
    return (← disk.read path.text).bind fun bytes =>
      match Utf8.decode? bytes with
      | some t => .ok t
      | none => .error .notText

def isPresent (disk : Disk m) (path : Path) : m Bool := disk.isPresent path.text

end Files

/-- The format that the path of a record file asks for. -/
def Record.Format.ofPath (path : Path) : Except FileError Record.Format :=
  let extension := path.extension?.getD []
  match ofExtension? extension with
  | some format => .ok format
  | none => .error (.unsupportedFormat extension)

end Partials
