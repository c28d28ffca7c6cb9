import Partials.Text

/-!
# Paths

A path is a text with forward slashes; backslashes are read as slashes. Names, stems, extensions and
parents are parts of that text. `Path.resolve` gives the place that a path leads to, without asking
any file system.
-/

namespace Partials

/-- A path with forward slashes only, if it was made by `Path.ofText`. -/
structure Path where
  text : Text
  deriving DecidableEq, Repr

namespace Path

/-- Backslashes become slashes. -/
def slashes (t : Text) : Text := t.map fun c => if c = '\\' then '/' else c

def ofText (t : Text) : Path := ⟨slashes t⟩

/-- The text without its leading `./` parts. -/
def stripHere : Text → Text
  | '.' :: '/' :: t => stripHere t
  | t => t

/-- The path followed by a segment. A leading `./` of the segment goes, and an empty path leaves the
segment as it is. -/
def join (p : Path) (segment : Text) : Path :=
  let segment := stripHere (slashes segment)
  if p.text = [] then ⟨segment⟩
  else if p.text.getLast? = some '/' then ⟨p.text ++ segment⟩
  else ⟨p.text ++ '/' :: segment⟩

/-- The text without slashes at its end. -/
def trimmed (p : Path) : Text := Text.dropEndWhile (· == '/') p.text

/-- The text up to the last occurrence of `sep`, and the text behind it. -/
def cutLast? (sep : Char) (t : Text) : Option (Text × Text) :=
  match Text.split sep t with
  | [] => none
  | [_] => none
  | pieces => some (Text.join [sep] pieces.dropLast, pieces.getLastD [])

/-- The directory that holds the path; a single name has none. -/
def parent? (p : Path) : Option Path :=
  match cutLast? '/' p.trimmed with
  | none => none
  | some ([], _) => some ⟨['/']⟩
  | some (front, _) => some ⟨front⟩

/-- The last name of the path. -/
def fileName? (p : Path) : Option Text :=
  match (Text.split '/' p.trimmed).getLastD [] with
  | [] => none
  | name => some name

/-- A name's text before and after its last dot. A dot at the start of a name is part of it. -/
def splitName? (name : Text) : Option (Text × Text) :=
  match cutLast? '.' name with
  | some (stem, ext) => if stem = [] then none else some (stem, ext)
  | none => none

/-- The last name without its extension. -/
def fileStem? (p : Path) : Option Text :=
  p.fileName?.map fun name => ((splitName? name).map Prod.fst).getD name

def extension? (p : Path) : Option Text :=
  p.fileName?.bind fun name => (splitName? name).map Prod.snd

/-- The first name of a relative path with more than one. -/
def leadingDir? (p : Path) : Option Text :=
  let relative := stripHere p.text
  match relative.takeWhile (· != '/'), relative.dropWhile (· != '/') with
  | c :: cs, '/' :: _ :: _ => some (c :: cs)
  | _, _ => none

/-- The parts of a path between its slashes. -/
def segments (t : Text) : List Text := Text.split '/' t

/-- One step from `place`: empty parts and `.` stay, `..` goes up (the top stays), a name goes
down. -/
def step (place : List Text) (segment : Text) : List Text :=
  if segment = [] ∨ segment = ['.'] then place
  else if segment = ['.', '.'] then place.dropLast
  else place ++ [segment]

/-- The names that lead to the path's place, from the place where it starts. -/
def resolve (t : Text) : List Text := (segments t).foldl step []

/-- The depth after the segments, if they never climb above where they start. -/
def descend? : (depth : Nat) → List Text → Option Nat
  | depth, [] => some depth
  | depth, segment :: rest =>
    if segment = [] ∨ segment = ['.'] then descend? depth rest
    else if segment = ['.', '.'] then
      match depth with
      | 0 => none
      | depth + 1 => descend? depth rest
    else descend? (depth + 1) rest

/-- A relative path without colon that never climbs above its start. -/
def isContained (p : Path) : Bool :=
  p.text.head? != some '/' && !p.text.contains ':' && (descend? 0 (segments p.text)).isSome

end Path

end Partials
