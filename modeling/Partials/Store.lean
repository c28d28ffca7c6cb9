import Partials.Files
import Partials.Json.Printer
import Partials.Json.Reader
import Partials.Toml.Printer
import Partials.Toml.Reader
import Partials.Yaml.Printer
import Partials.Yaml.Reader

/-!
# Record files

Loading and saving records in the format that the extension of their file asks for.
-/

namespace Partials

namespace Record.Format

/-- The data of a text in the format. -/
def read? : Format → Text → Option Datum
  | toml => Toml.read?
  | json => Json.read?
  | yaml => Yaml.read?

def rules : Format → Rules
  | toml => Toml.rules
  | json => Json.rules
  | yaml => Yaml.rules

/-- The text of a record in the format. -/
def print? : Format → Record → Option Text
  | toml, r => Toml.print? r
  | json, r => some (r.pretty 0)
  | yaml, r => some (Yaml.print r)

end Record.Format

/-- The text with a line end at its end. -/
def endLine (t : Text) : Text := if t.getLast? = some '\n' then t else t ++ ['\n']

namespace Store

variable {m : Type → Type} [Monad m]

/-- Loads the record of a file as `decode` understands it. -/
def load {α : Type} (disk : Disk m) (path : Path)
    (decode : Record.Rules → Datum → Option α) : ExceptT FileError m α := do
  let format ← Record.Format.ofPath path
  let content ← Files.readText disk path
  match (format.read? content).bind (decode format.rules) with
  | some a => return a
  | none => throw (.malformedRecord format path.text)

/-- Saves a record to a file, in one step. -/
def save (disk : Disk m) (tag : Text) (path : Path) (record : Record) :
    ExceptT FileError m Unit := do
  let format ← Record.Format.ofPath path
  match format.print? record with
  | some t => Files.writeText disk tag path (endLine t)
  | none => throw (.inexpressibleRecord format path.text)

end Store

end Partials
