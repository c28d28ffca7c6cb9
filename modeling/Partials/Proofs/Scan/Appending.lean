import Partials.Proofs.Scan.Grammar

/-!
# Text behind closed spans

A closed span is decided where its closing marker ends. Whatever is appended to a document, the
spans that were closed in it are the first spans of the longer document, with their labels, contents
and lines: `ofText_discard_isPrefix`.
-/

namespace Partials.Scan

open Marker

theorem IsGap.of_behind {gap opening annotation behind : Text}
    (hopening : IsOpening opening annotation) (h : IsGap gap (opening ++ behind))
    (behind' : Text) : IsGap gap (opening ++ behind') := by
  intro before rest hgap hne hopens
  apply h before rest hgap hne
  exact opensAt_append_of_opensAt hne hopening hopens behind

namespace Group

theorem Stands.of_behind {g : Group} {behind : Text} (h : g.Stands behind) (behind' : Text) :
    g.Stands behind' := by
  refine ⟨?_, h.opening, h.content, h.closing⟩
  have hgap := h.gap
  simp only [List.append_assoc] at hgap ⊢
  exact hgap.of_behind h.opening _

/-- Groups that stand before one tail stand before any other. -/
theorem stand_of_stand {groups : List Group} {tail : Text} (h : Stand groups tail)
    (tail' : Text) : Stand groups tail' := by
  induction groups with
  | nil => trivial
  | cons g groups ih => exact ⟨h.1.of_behind _, ih h.2⟩

theorem getLast?_text_append_ne_return {g : Group} (h : IsClosing g.closing) {behind : Text}
    (hbehind : behind.getLast? ≠ some '\r') : (g.text ++ behind).getLast? ≠ some '\r' := by
  obtain ⟨blanks, blanks', -, -, hclosing⟩ := h
  have hlast : g.text.getLast? = some '>' := by
    simp only [text, hclosing, commentEnd, List.getLast?_append]
    rfl
  rw [List.getLast?_append, hlast]
  cases hcase : behind.getLast? with
  | none => decide
  | some c =>
      rw [hcase] at hbehind
      exact hbehind

/-- The last group ends with a closing marker, so no line ending is completed behind it. -/
theorem getLast?_flatMap_text_ne_return {groups : List Group} {tail : Text}
    (h : Stand groups tail) : (groups.flatMap text).getLast? ≠ some '\r' := by
  induction groups with
  | nil => decide
  | cons g groups ih =>
      rw [List.flatMap_cons]
      exact getLast?_text_append_ne_return h.1.closing (ih h.2)

end Group

theorem exists_spans_discard_eq (t : Text) :
    ∃ groups tail, Text.normalizeLineEndings t = groups.flatMap Group.text ++ tail ∧
      Group.Stand groups tail ∧ (ofText .discard t).spans = Group.spans [] groups := by
  obtain ⟨groups, tail, last, ht, hgroups, hlast, hscan⟩ :=
    ofText_eq_iff.mp (Eq.refl (ofText .discard t))
  refine ⟨groups, tail, ht, hgroups, ?_⟩
  rw [hscan]
  cases hlast with
  | plain hplain => exact List.append_nil _
  | dangling hgap hopening hcontent => exact List.append_nil _

/-- Appended text leaves the closed spans of a document as they are: the spans found where an
annotation without a close is dropped are the first ones, under either policy, of every document
that starts with this one. -/
theorem ofText_discard_isPrefix (policy : Policy) (t u : Text) :
    (ofText .discard t).spans <+: (ofText policy (t ++ u)).spans := by
  obtain ⟨groups, tail, ht, hgroups, hspans⟩ := exists_spans_discard_eq t
  obtain ⟨tail', ht'⟩ := Text.exists_normalizeLineEndings_append ht
    (Group.getLast?_flatMap_text_ne_return hgroups) u
  have hscan : ofText policy (t ++ u) =
      ofLines policy (lineAfter []) (groups.flatMap Group.text ++ tail') := by
    rw [ofText, ht']
    rfl
  rw [hspans, hscan, ofLines_groups (Group.stand_of_stand hgroups tail')]
  exact List.prefix_append _ _

/-- A carriage return at the seam becomes part of a line ending, and a marker begun before it is
completed behind it. -/
example :
    (ofText .discard "<!-- extract:a -->A<!-- endextract --><!--\r".toList).spans =
        [⟨"extract:a".toList, ['A'], 1, 1, true⟩] ∧
      (ofText .closeAtEnd ("<!-- extract:a -->A<!-- endextract --><!--\r".toList ++
          "\nextract:b -->B".toList)).spans =
        [⟨"extract:a".toList, ['A'], 1, 1, true⟩, ⟨"extract:b".toList, ['B'], 1, 2, false⟩] := by
  decide +kernel

end Partials.Scan
