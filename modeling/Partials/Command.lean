import Partials.Text

/-!
# The command line

What the arguments ask for: a run over files with settings, the help text, the version, or nothing
that makes sense. Arguments are read from left to right, and the first one that decides the outcome
does so.
-/

namespace Partials

/-- A run as the command line asks for it. -/
structure Command where
  files : List Text := []
  config : Option Text := none
  indent : Option Text := none
  base : Option Text := none
  partialsDir : Option Text := none
  storage : Option Text := none
  flatten : Bool := false
  closeUnterminated : Bool := false
  dryRun : Bool := false
  verbose : Bool := false
  deriving DecidableEq, Repr

/-- What takes the place of a run. -/
inductive Refusal
  | help
  | version
  /-- The arguments are not understood. -/
  | usage
  deriving DecidableEq, Repr

/-- An option without value. -/
inductive Flag
  | flatten
  | closeUnterminated
  | dryRun
  | verbose
  | help
  | version
  deriving DecidableEq, Repr

/-- An option with a value. -/
inductive Setting
  | config
  | indent
  | base
  | partialsDir
  | storage
  deriving DecidableEq, Repr

namespace Flag

def ofName? (name : Text) : Option Flag :=
  if name = "flatten".toList then some flatten
  else if name = "close-unterminated".toList then some closeUnterminated
  else if name = "dry-run".toList then some dryRun
  else if name = "verbose".toList then some verbose
  else if name = "help".toList then some help
  else if name = "version".toList then some version
  else none

def ofLetter? (c : Char) : Option Flag :=
  if c = 'v' then some verbose
  else if c = 'h' then some help
  else if c = 'V' then some version
  else none

end Flag

namespace Setting

def ofName? (name : Text) : Option Setting :=
  if name = "config".toList then some config
  else if name = "indent".toList then some indent
  else if name = "base".toList then some base
  else if name = "partials-dir".toList then some partialsDir
  else if name = "storage".toList then some storage
  else none

def ofLetter? (c : Char) : Option Setting := if c = 'c' then some config else none

end Setting

namespace Command

/-- A value that must not have been set before. -/
def once (old : Option Text) (value : Text) : Except Refusal (Option Text) :=
  if old.isSome then .error .usage else .ok (some value)

/-- A flag that must not have been raised before. -/
def raise (old : Bool) : Except Refusal Bool := if old then .error .usage else .ok true

def setFlag (c : Command) : Flag → Except Refusal Command
  | .flatten => do return { c with flatten := ← raise c.flatten }
  | .closeUnterminated => do return { c with closeUnterminated := ← raise c.closeUnterminated }
  | .dryRun => do return { c with dryRun := ← raise c.dryRun }
  | .verbose => do return { c with verbose := ← raise c.verbose }
  | .help => .error .help
  | .version => .error .version

/-- Sets a value. The path of a file of options may not be empty. -/
def set (c : Command) (value : Text) : Setting → Except Refusal Command
  | .config =>
    if value = [] then .error .usage else do return { c with config := ← once c.config value }
  | .indent => do return { c with indent := ← once c.indent value }
  | .base => do return { c with base := ← once c.base value }
  | .partialsDir => do return { c with partialsDir := ← once c.partialsDir value }
  | .storage => do return { c with storage := ← once c.storage value }

/-- Adds a file; its path may not be empty. -/
def addFile (c : Command) (file : Text) : Except Refusal Command :=
  if file = [] then .error .usage else .ok { c with files := c.files ++ [file] }

/-- An option by its name, which a value may follow behind an equals sign. Gives the setting whose
value is the next argument, if there is one. -/
def readName (c : Command) (t : Text) : Except Refusal (Command × Option Setting) :=
  let name := t.takeWhile (· != '=')
  let value := (t.dropWhile (· != '=')).tail?
  match Flag.ofName? name, Setting.ofName? name, value with
  | some flag, _, none => do return (← c.setFlag flag, none)
  | none, some setting, none => .ok (c, some setting)
  | none, some setting, some value => do return (← c.set value setting, none)
  | _, _, _ => .error .usage

/-- Options by their letters. Behind the letter of a setting its value may follow, also behind an
equals sign. -/
def readLetters (c : Command) : Text → Except Refusal (Command × Option Setting)
  | [] => .ok (c, none)
  | letter :: letters =>
    match Flag.ofLetter? letter, Setting.ofLetter? letter, letters with
    | some flag, _, _ => do (← c.setFlag flag).readLetters letters
    | none, some setting, [] => .ok (c, some setting)
    | none, some setting, '=' :: value => do return (← c.set value setting, none)
    | none, some setting, value => do return (← c.set value setting, none)
    | none, none, _ => .error .usage

/-- Whether an argument cannot be a value: it starts with a hyphen and is longer. -/
def isOption : Text → Bool
  | '-' :: _ :: _ => true
  | _ => false

/-- Reads arguments, given the setting whose value comes next. -/
def readFrom (c : Command) : (pending : Option Setting) → List Text → Except Refusal Command
  | none, [] => .ok c
  | some _, [] => .error .usage
  | some setting, arg :: args =>
    if isOption arg then .error .usage else do (← c.set arg setting).readFrom none args
  | none, arg :: args =>
    match arg with
    | ['-', '-'] => args.foldlM addFile c
    | '-' :: '-' :: t => do
      let (c, pending) ← c.readName t
      c.readFrom pending args
    | '-' :: letter :: letters => do
      let (c, pending) ← c.readLetters (letter :: letters)
      c.readFrom pending args
    | file => do (← c.addFile file).readFrom none args

/-- The command of the arguments. A file of options that they do not name may be named by the
environment, and at least one file has to be given. -/
def read (environment : Option Text) (args : List Text) : Except Refusal Command := do
  let c ← readFrom {} none args
  let c ← match c.config, environment with
    | none, some value => c.set value .config
    | _, _ => pure c
  if c.files = [] then throw .usage
  return c

end Command

end Partials
