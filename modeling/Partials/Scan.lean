import Partials.Marker

/-!
# Scanning a document

A scan reads a document from left to right and lists its annotated spans. Spans do not nest: after
an opening marker the next closing marker ends the span, whatever stands between them.
-/

namespace Partials

/-- What becomes of an opening marker that is never closed. -/
inductive Policy
  /-- The annotation is dropped. -/
  | discard
  /-- The end of the document closes it. -/
  | closeAtEnd
  deriving DecidableEq, Repr

/-- An annotated span of a document. -/
structure Span where
  /-- The trimmed text of the opening marker, from `extract:` on. -/
  label : Text
  /-- The text between the two markers. -/
  content : Text
  /-- The line of the opening marker, counted from 1. -/
  startLine : Nat
  /-- The line of the closing marker; for a span closed by the document's end its last line that is
  not empty. -/
  endLine : Nat
  /-- Whether a closing marker ended the span. -/
  terminated : Bool
  deriving DecidableEq, Repr

/-- What a document holds. -/
structure Scan where
  spans : List Span
  /-- The line of an opening marker that no closing marker follows. -/
  unterminated : Option Nat
  deriving DecidableEq, Repr

namespace Scan

/-- No opening marker was seen. -/
def isEmpty (s : Scan) : Bool := s.spans.isEmpty && s.unterminated.isNone

theorem rest_lt {t gap content : Text} {opened closed : Marker.Found}
    (ho : Marker.search Marker.opening? t = some (gap, opened))
    (hc : Marker.search Marker.closing? opened.rest = some (content, closed)) :
    closed.rest.length < t.length := by
  obtain ⟨tail, rfl, htail, -⟩ := Marker.search_eq_some ho
  obtain ⟨tail', hrest, htail', -⟩ := Marker.search_eq_some hc
  have h₁ := (Marker.opening?_eq_some htail).1
  have h₂ := (Marker.closing?_eq_some htail').1
  have hne := List.length_pos_iff.2 (Marker.opening?_marker_ne_nil htail)
  rw [h₁, hrest, h₂]
  simp only [List.length_append]
  omega

/-- Scans a text whose first character stands on line `line`. -/
def ofLines (policy : Policy) (line : Nat) (t : Text) : Scan :=
  match _ho : Marker.search Marker.opening? t with
  | none => ⟨[], none⟩
  | some (gap, opened) =>
    let start := line + Text.newlines gap
    let inside := start + Text.newlines opened.marker
    match _hc : Marker.search Marker.closing? opened.rest with
    | some (content, closed) =>
      let stop := inside + Text.newlines content
      let later := ofLines policy (stop + Text.newlines closed.marker) closed.rest
      { later with spans := ⟨Text.trim opened.inner, content, start, stop, true⟩ :: later.spans }
    | none =>
      let stop := inside + Text.newlines (Text.dropEndWhile (· == '\n') opened.rest)
      match policy with
      | .discard => ⟨[], some start⟩
      | .closeAtEnd =>
        ⟨[⟨Text.trim opened.inner, opened.rest, start, stop, false⟩], some start⟩
termination_by t.length
decreasing_by exact rest_lt _ho _hc

/-- The spans of a document, in order of appearance. -/
def ofText (policy : Policy) (t : Text) : Scan :=
  ofLines policy 1 (Text.normalizeLineEndings t)

end Scan

end Partials
