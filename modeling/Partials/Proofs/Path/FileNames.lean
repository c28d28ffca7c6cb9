import Mathlib.Data.List.Basic
import Mathlib.Data.List.TakeWhile
import Partials.Proofs.Path.Confinement
import Partials.Proofs.Tree.Places

/-!
# Paths that can name a file

A path whose last segment is a name can name a file, and no other path can (`namesFile_iff`). The
last segment of a joined path is that of the segment it was joined with, and a path is its last
segment with what stands in front of it (`directoryPart_append_lastSegment`).
-/

namespace Partials

namespace Path

/-- The segment behind the last slash. -/
def lastSegment (t : Text) : Text := (segments t).getLastD []

theorem lastSegment_of_segments {t last : Text} {front : List Text}
    (h : segments t = front ++ [last]) : lastSegment t = last := by
  rw [lastSegment, h, List.getLastD_concat]

theorem exists_segments_eq (t : Text) : ∃ front, segments t = front ++ [lastSegment t] := by
  have hlast := List.dropLast_append_getLast (segments_ne_nil t)
  refine ⟨(segments t).dropLast, ?_⟩
  rw [lastSegment_of_segments hlast.symm, hlast]

theorem lastSegment_mem_split (t : Text) : lastSegment t ∈ Text.split '/' t := by
  obtain ⟨front, hfront⟩ := exists_segments_eq t
  change lastSegment t ∈ segments t
  rw [hfront]
  exact List.mem_append_right front (List.mem_singleton_self _)

theorem slash_not_mem_lastSegment (t : Text) : '/' ∉ lastSegment t :=
  Text.not_mem_of_mem_split (lastSegment_mem_split t)

theorem lastSegment_of_slash_not_mem {name : Text} (h : '/' ∉ name) : lastSegment name = name := by
  have hsingle : segments name = [] ++ [name] := Text.split_of_not_mem h
  exact lastSegment_of_segments hsingle

theorem mem_of_mem_lastSegment {t : Text} {c : Char} (h : c ∈ lastSegment t) : c ∈ t :=
  Text.mem_of_mem_split (lastSegment_mem_split t) h

/-- Only the empty path and paths that end in a slash have no last name. -/
theorem lastSegment_eq_nil_iff {t : Text} :
    lastSegment t = [] ↔ t = [] ∨ t.getLast? = some '/' := by
  obtain ⟨front, hfront⟩ := exists_segments_eq t
  constructor
  · intro hnil
    rw [hnil] at hfront
    have hjoin : Text.join ['/'] (front ++ [[]]) = t := hfront ▸ Text.join_split '/' t
    by_cases hempty : front = []
    · left
      rw [← hjoin, hempty]
      rfl
    · right
      rw [← hjoin, Text.join_append hempty (List.cons_ne_nil _ _)]
      simp [Text.join]
  · rintro (rfl | hslash)
    · rfl
    · obtain ⟨before, rfl⟩ := List.getLast?_eq_some_iff.mp hslash
      exact lastSegment_of_segments (segments_append_slash before [])

/-- The path can name a file: there is a path, it does not end in a slash, in `.` or in `..`, and it
leads away from where it starts. -/
structure NamesFile (t : Text) : Prop where
  ne_nil : t ≠ []
  no_slash : t.getLast? ≠ some '/'
  ne_here : lastSegment t ≠ ['.']
  ne_up : lastSegment t ≠ ['.', '.']
  resolve_ne_nil : resolve t ≠ []

theorem namesFile_iff {t : Text} : NamesFile t ↔ Tree.isName (lastSegment t) = true := by
  constructor
  · intro h
    apply Tree.isName_iff.mpr
    refine ⟨?_, h.ne_up⟩
    rintro (hnil | hhere)
    · rcases lastSegment_eq_nil_iff.mp hnil with hempty | hslash
      · exact h.ne_nil hempty
      · exact h.no_slash hslash
    · exact h.ne_here hhere
  · intro h
    obtain ⟨hidle, hup⟩ := Tree.isName_iff.mp h
    rw [not_or] at hidle
    have hends : ¬ (t = [] ∨ t.getLast? = some '/') := mt lastSegment_eq_nil_iff.mpr hidle.1
    rw [not_or] at hends
    refine ⟨hends.1, hends.2, hidle.2, hup, ?_⟩
    obtain ⟨front, hfront⟩ := exists_segments_eq t
    rw [resolve, hfront, List.foldl_append, List.foldl_cons, List.foldl_nil,
      step_name _ (not_or.mpr hidle) hup]
    exact List.append_ne_nil_of_right_ne_nil _ (List.cons_ne_nil _ _)

theorem backslash_not_mem_slashes (t : Text) : '\\' ∉ slashes t := by
  intro hmem
  obtain ⟨c, -, hc⟩ := List.mem_map.mp hmem
  split at hc
  · exact absurd hc (by decide)
  · next hne => exact hne hc

theorem slashes_of_backslash_not_mem {t : Text} (h : '\\' ∉ t) : slashes t = t := by
  have hsame : ∀ c ∈ t, (if c = '\\' then '/' else c) = c := by
    intro c hc
    exact if_neg fun (heq : c = '\\') => h (heq ▸ hc)
  rw [slashes, List.map_congr_left hsame, List.map_id']

theorem lastSegment_stripHere (t : Text) : lastSegment (stripHere t) = lastSegment t := by
  obtain ⟨front, hfront⟩ := exists_segments_eq (stripHere t)
  obtain ⟨before, hbefore⟩ := stripHere_isSuffix t
  rw [hfront, ← List.append_assoc] at hbefore
  exact (lastSegment_of_segments hbefore.symm).symm

theorem lastSegment_join (p : Path) (segment : Text) :
    lastSegment (p.join segment).text = lastSegment (slashes segment) := by
  rw [← lastSegment_stripHere (slashes segment)]
  by_cases hempty : p.text = []
  · rw [join_of_eq_nil hempty]
  · obtain ⟨base, hbase, -⟩ := exists_segments_join hempty segment
    obtain ⟨front, hfront⟩ := exists_segments_eq (stripHere (slashes segment))
    rw [hfront, ← List.append_assoc] at hbase
    exact lastSegment_of_segments hbase

theorem fileName?_eq (p : Path) :
    p.fileName? = if lastSegment p.trimmed = [] then none else some (lastSegment p.trimmed) := by
  unfold fileName? lastSegment segments
  split
  · next hnil => rw [if_pos hnil]
  · next hne => rw [if_neg hne]

/-- No slash is left at the end. -/
theorem getLast?_trimmed_ne_slash (p : Path) : p.trimmed.getLast? ≠ some '/' := by
  intro hslash
  have hhead := List.head?_dropWhile_not (· == '/') p.text.reverse
  rw [trimmed, Text.dropEndWhile, List.getLast?_reverse] at hslash
  rw [hslash] at hhead
  cases hhead

/-- Without a name, a relative path is empty. -/
theorem head?_of_lastSegment_trimmed_eq_nil {p : Path} (hne : p.text ≠ [])
    (h : lastSegment p.trimmed = []) : p.text.head? = some '/' := by
  have hempty : p.trimmed = [] :=
    (lastSegment_eq_nil_iff.mp h).resolve_right (getLast?_trimmed_ne_slash p)
  obtain ⟨c, cs, hcons⟩ := List.exists_cons_of_ne_nil hne
  rw [trimmed, Text.dropEndWhile, List.reverse_eq_nil_iff, List.dropWhile_eq_nil_iff] at hempty
  have hc : (c == '/') = true := hempty c (by simp [hcons])
  rw [hcons, List.head?_cons, beq_iff_eq.mp hc]

/-- The text up to its last slash, and with it. -/
def directoryPart (t : Text) : Text :=
  match cutLast? '/' t with
  | some (front, _) => front ++ ['/']
  | none => []

theorem cutLast?_slash_of_segments {t last : Text} {front : List Text}
    (h : segments t = front ++ [last]) :
    cutLast? '/' t = if front = [] then none else some (Text.join ['/'] front, last) := by
  have hsplit : Text.split '/' t = front ++ [last] := h
  unfold cutLast?
  rw [hsplit]
  cases front with
  | nil => rfl
  | cons first rest =>
      obtain ⟨next, others, hnext⟩ := List.exists_cons_of_ne_nil
        (List.append_ne_nil_of_right_ne_nil rest (List.cons_ne_nil last []))
      have hpieces : first :: rest ++ [last] = first :: next :: others := congrArg (first :: ·) hnext
      rw [hpieces]
      dsimp only
      rw [← hpieces, List.dropLast_concat, List.getLastD_concat]
      rfl

/-- A path is what stands up to its last slash and its last segment. -/
theorem directoryPart_append_lastSegment (t : Text) : directoryPart t ++ lastSegment t = t := by
  obtain ⟨front, hfront⟩ := exists_segments_eq t
  have hjoin : Text.join ['/'] (front ++ [lastSegment t]) = t := hfront ▸ Text.join_split '/' t
  unfold directoryPart
  rw [cutLast?_slash_of_segments hfront]
  by_cases hempty : front = []
  · rw [hempty] at hjoin
    rw [if_pos hempty]
    exact hjoin
  · rw [Text.join_append hempty (List.cons_ne_nil _ _)] at hjoin
    rw [if_neg hempty]
    exact hjoin

theorem directoryPart_eq_nil_or (t : Text) :
    directoryPart t = [] ∨ (directoryPart t).getLast? = some '/' := by
  unfold directoryPart
  split
  · exact .inr List.getLast?_concat
  · exact .inl rfl

end Path

end Partials
