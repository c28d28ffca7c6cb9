import Partials.Path

/-!
# Paths as a file system reads them

The directory and the name of a path, where slashes at the end and `.` parts do not count. A `.` at
the start of a relative path is a part of its own.
-/

namespace Partials.Path.Native

/-- A part that adds nothing to a path. -/
def isIdle (segment : Text) : Bool := segment == [] || segment == ['.']

/-- Drops idle parts from the end of a path, whose parts are given from the last to the first. The
first part stays: it is the root, a `.` or a name. -/
def dropIdle : List Text → List Text
  | [] => []
  | [first] => [first]
  | segment :: next :: rest =>
    if isIdle segment then dropIdle (next :: rest) else segment :: next :: rest

/-- The parts of a path from the last to the first, without idle ones at its end. -/
def parts (t : Text) : List Text := dropIdle (Text.split '/' t).reverse

/-- The text of a path given by its parts from the last to the first. -/
def unparts : List Text → Text
  | [[]] => ['/']
  | segments => Text.join ['/'] segments.reverse

/-- The last part of a path, unless it leads up or nowhere. -/
def fileName? (t : Text) : Option Text :=
  match parts t with
  | [] => none
  | segment :: _ => if isIdle segment || segment == ['.', '.'] then none else some segment

/-- The paths above a path, given by its parts from the last to the first; the one that holds it
comes first, and the root or the empty path last. -/
def above : List Text → List Text
  | [] => []
  | [first] => if first = [] then [] else [[]]
  | _ :: next :: rest =>
    if isIdle next ∧ rest ≠ [] then above (next :: rest)
    else unparts (next :: rest) :: above (next :: rest)

/-- The directory that holds the path; the root and the empty path have none. -/
def parent? (t : Text) : Option Text := (above (parts t)).head?

/-- The path with another last part; a path without a name gets one. -/
def withFileName (t name : Text) : Text :=
  let base := if (fileName? t).isSome then (parent? t).getD [] else t
  if base = [] then name
  else if base.getLast? = some '/' then base ++ name
  else base ++ '/' :: name

/-- The path and the paths above it, without the empty one. -/
def ancestors (t : Text) : List Text :=
  (t :: above (parts t)).filter (· ≠ [])

end Partials.Path.Native
