import Partials.Disk
import Partials.Path

/-!
# Trees of files

A file system as a value: a map from places to files and directories. A place is the list of names
that leads to it from the root, and paths are walked name by name, so that each operation fails for
the reason for which a file system without links refuses it.
-/

namespace Partials

/-- The names from the root. -/
abbrev Place := List Text

inductive Node
  | directory
  | file (bytes : Utf8.Bytes)
  deriving DecidableEq, Repr

structure Tree where
  entries : List (Place × Node)
  deriving DecidableEq, Repr

namespace Tree

def empty : Tree := ⟨[]⟩

/-- The root is always a directory. -/
def get? (t : Tree) (place : Place) : Option Node :=
  if place = [] then some .directory else t.entries.lookup place

def erase (t : Tree) (place : Place) : Tree := ⟨t.entries.filter (·.1 != place)⟩

def put (t : Tree) (place : Place) (node : Node) : Tree :=
  ⟨(place, node) :: (t.erase place).entries⟩

/-- The files and their bytes. -/
def files (t : Tree) : List (Place × Utf8.Bytes) :=
  t.entries.filterMap fun (place, node) =>
    match node with
    | .file bytes => some (place, bytes)
    | .directory => none

/-- The longest name that a directory takes, in bytes. -/
def nameLimit : Nat := 255

/-- Paths of this many bytes or more are refused. -/
def pathLimit : Nat := 4096

def isTooLong (name : Text) : Bool := nameLimit < (Utf8.encode name).length

/-- One part of a path, from a place. Every part asks for a directory to start from. -/
def step (t : Tree) (place : Place) (segment : Text) : Except OsError Place :=
  match t.get? place with
  | some .directory =>
    if segment = [] ∨ segment = ['.'] then .ok place
    else if segment = ['.', '.'] then .ok place.dropLast
    else if isTooLong segment then .error .nameTooLong
    else if (t.get? (place ++ [segment])).isSome then .ok (place ++ [segment])
    else .error .notFound
  | some (.file _) => .error .notADirectory
  | none => .error .notFound

/-- The parts of a path, one after the other. -/
def walk (t : Tree) (place : Place) (segments : List Text) : Except OsError Place :=
  segments.foldlM t.step place

/-- Where a path starts: at the root, or at the working directory. -/
def start (cwd : Place) (path : Text) : Place := if path.head? = some '/' then [] else cwd

/-- A path holds no null character, which is checked before anything else. An empty path leads
nowhere, and a path has a greatest length. -/
def checkPath (path : Text) : Except OsError Unit :=
  if '\x00' ∈ path then .error .nullInPath
  else if path = [] then .error .notFound
  else if pathLimit ≤ (Utf8.encode path).length then .error .nameTooLong
  else .ok ()

/-- The place of a path that is there. -/
def find (t : Tree) (cwd : Place) (path : Text) : Except OsError Place := do
  checkPath path
  t.walk (start cwd path) (Path.segments path)

/-- The end of a path that need not be there: the directory, the last part, and whether slashes
follow it. -/
structure Target where
  directory : Place
  last : Text
  slash : Bool

/-- Whether a part is a name, and neither empty nor a dot or two. -/
def isName (segment : Text) : Bool :=
  segment != [] && segment != ['.'] && segment != ['.', '.']

def target (t : Tree) (cwd : Place) (path : Text) : Except OsError Target := do
  checkPath path
  let segments := (Path.segments path).reverse
  let parts := segments.dropWhile (· == [])
  let directory ← t.walk (start cwd path) parts.tail.reverse
  match t.get? directory with
  | some .directory => .ok ⟨directory, parts.headD [], decide (parts.length < segments.length)⟩
  | some (.file _) => .error .notADirectory
  | none => .error .notFound

def Target.place (target : Target) : Place := target.directory ++ [target.last]

def makeDirectory (t : Tree) (cwd : Place) (path : Text) : Except OsError Tree := do
  let target ← t.target cwd path
  if !isName target.last then .error .alreadyExists
  else if isTooLong target.last then .error .nameTooLong
  else if (t.get? target.place).isSome then .error .alreadyExists
  else .ok (t.put target.place .directory)

def isPresent (t : Tree) (cwd : Place) (path : Text) : Bool :=
  match t.find cwd path with
  | .ok _ => true
  | .error _ => false

def isDirectory (t : Tree) (cwd : Place) (path : Text) : Bool :=
  match t.find cwd path with
  | .ok place => t.get? place == some .directory
  | .error _ => false

def create (t : Tree) (cwd : Place) (path : Text) (bytes : Utf8.Bytes) : Except OsError Tree := do
  let target ← t.target cwd path
  if !isName target.last || target.slash then .error .isADirectory
  else if isTooLong target.last then .error .nameTooLong
  else match t.get? target.place with
    | some .directory => .error .isADirectory
    | _ => .ok (t.put target.place (.file bytes))

/-- Moves a file; directories are not moved. -/
def rename (t : Tree) (cwd : Place) (old new : Text) : Except OsError Tree := do
  let source ← t.target cwd old
  let target ← t.target cwd new
  if !isName source.last || !isName target.last then .error .busy
  else match t.get? source.place with
    | none => .error .notFound
    | some .directory => .error .isADirectory
    | some (.file bytes) =>
      if isTooLong target.last then .error .nameTooLong
      else if source.slash || target.slash then .error .notADirectory
      else match t.get? target.place with
        | some .directory => .error .isADirectory
        | _ => .ok ((t.erase source.place).put target.place (.file bytes))

def read (t : Tree) (cwd : Place) (path : Text) : Except OsError Utf8.Bytes := do
  let place ← t.find cwd path
  match t.get? place with
  | some (.file bytes) => .ok bytes
  | some .directory => .error .isADirectory
  | none => .error .notFound

/-- Applies an operation that makes a new tree; a failure leaves the tree as it is. -/
def update (operation : Tree → Except OsError Tree) : StateM Tree (Except OsError Unit) :=
  fun t =>
    match operation t with
    | .ok t' => (.ok (), t')
    | .error e => (.error e, t)

/-- The tree as a disk, with a working directory for relative paths. -/
def disk (cwd : Place) : Disk (StateM Tree) where
  makeDirectory path := update (·.makeDirectory cwd path)
  isDirectory path := fun t => (t.isDirectory cwd path, t)
  isPresent path := fun t => (t.isPresent cwd path, t)
  create path bytes := update (·.create cwd path bytes)
  rename old new := update (·.rename cwd old new)
  read path := fun t => (t.read cwd path, t)

theorem get?_put (t : Tree) {place : Place} (hp : place ≠ []) (node : Node) (other : Place) :
    (t.put place node).get? other = if other = place then some node else t.get? other := by
  unfold put get? erase
  by_cases ho : other = place
  · simp [ho, hp]
  · simp only [ho, if_false]
    split
    · rfl
    · rw [List.lookup_cons, beq_eq_false_iff_ne.2 ho]
      simp only
      induction t.entries with
      | nil => rfl
      | cons entry entries ih =>
        obtain ⟨p, n⟩ := entry
        by_cases hpe : p = place
        · subst hpe
          simpa [List.lookup_cons, beq_eq_false_iff_ne.2 ho] using ih
        · simp only [List.filter_cons, bne_iff_ne, ne_eq, hpe, not_false_eq_true, if_true,
            List.lookup_cons, ih]

end Tree

end Partials
