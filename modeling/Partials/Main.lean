import Partials.Run

/-!
# The program

Runs the command of the arguments on the file system.
-/

namespace Partials

/-- The cause of a failed operation. -/
def OsError.ofIO : IO.Error → OsError
  | .noFileOrDirectory .. => .notFound
  | .alreadyExists .. => .alreadyExists
  | .inappropriateType _ code _ => if code = 20 then .notADirectory else .isADirectory
  | .resourceBusy .. => .busy
  | .invalidArgument _ _ "string contains NUL bytes" => .nullInPath
  | e => .other (toString e).toList

/-- Does an operation of the file system, and catches its failure. -/
def attempt {α : Type} (operation : IO α) : IO (Except OsError α) := do
  match ← operation.toBaseIO with
  | .ok a => return .ok a
  | .error e => return .error (.ofIO e)

/-- Whether a path leads anywhere. -/
def leadsSomewhere (path : String) : IO Bool := do
  match ← attempt (IO.FS.realPath path) with
  | .ok _ => return true
  | .error _ => return false

/-- The file system; relative paths start from the working directory of the process. -/
def Disk.host : Disk IO where
  makeDirectory path := attempt (IO.FS.createDir (String.ofList path))
  isDirectory path := leadsSomewhere (String.ofList (path ++ ['/', '.']))
  isPresent path := leadsSomewhere (String.ofList path)
  create path bytes := attempt (IO.FS.writeBinFile (String.ofList path) ⟨bytes.toArray⟩)
  rename old new := attempt (IO.FS.rename (String.ofList old) (String.ofList new))
  read path := do
    return (← attempt (IO.FS.readBinFile (String.ofList path))).map ByteArray.toList

def usageLines : List String :=
  ["Usage: partial-extract [OPTIONS] <FILES>...",
    "",
    "Extracts annotated blocks from HTML pages into reusable partials.",
    "",
    "Options:",
    "  -c, --config <CONFIG>              file of options (.toml, .json, .yaml)",
    "      --flatten                      reduce every destination to its file name",
    "      --indent <INDENT>              indentation for tabs and view wraps",
    "      --base <BASE>                  directory of relative documents",
    "      --partials-dir <PARTIALS_DIR>  directory of partials",
    "      --storage <STORAGE>            inventory file",
    "      --close-unterminated           close a block left open at the end of a document",
    "      --dry-run                      write nothing",
    "  -v, --verbose                      say more",
    "  -h, --help                         print this text",
    "  -V, --version                      print the version"]

def usageText : String := String.join (usageLines.map (· ++ "\n"))

def versionText : String := "partial-extract 0.1.0\n"

/-- Runs a command; the answer is the exit code. -/
def runCommand (c : Command) : IO UInt32 := do
  let cwd := (toString (← IO.currentDir)).toList
  let tag := (toString (← IO.monoNanosNow)).toList
  match ← (c.run Disk.host tag cwd).run with
  | .ok summary =>
    IO.print (String.ofList summary.text)
    return 0
  | .error e =>
    IO.eprint (String.ofList e.text)
    return 1

end Partials

def main (args : List String) : IO UInt32 := do
  let environment := (← IO.getEnv "PARTIAL_EXTRACT_CONFIG").map String.toList
  match Partials.Command.read environment (args.map String.toList) with
  | .ok c => Partials.runCommand c
  | .error .help =>
    IO.print Partials.usageText
    return 0
  | .error .version =>
    IO.print Partials.versionText
    return 0
  | .error .usage =>
    IO.eprint Partials.usageText
    return 2
