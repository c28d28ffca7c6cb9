import Partials.Files
import Partials.Proofs.Tree.Places

/-!
# The file beside the target

A text is written first to a file in the directory of its target, under a name of its own.
-/

namespace Partials

namespace Path.Native

theorem dropIdle_ne_nil {parts : List Text} (h : parts ≠ []) : dropIdle parts ≠ [] := by
  fun_induction dropIdle parts with
  | case1 => exact absurd rfl h
  | case2 first => exact h
  | case3 segment next rest hidle ih => exact ih (List.cons_ne_nil _ _)
  | case4 segment next rest hidle => exact List.cons_ne_nil _ _

theorem getLast?_dropIdle (parts : List Text) : (dropIdle parts).getLast? = parts.getLast? := by
  fun_induction dropIdle parts with
  | case1 => rfl
  | case2 first => rfl
  | case3 segment next rest hidle ih => rw [ih, List.getLast?_cons_cons]
  | case4 segment next rest hidle => rfl

/-- Idle parts lead nowhere, so dropping them changes no place. -/
theorem foldl_step_dropIdle (place : List Text) (parts : List Text) :
    (dropIdle parts).reverse.foldl step place = parts.reverse.foldl step place := by
  fun_induction dropIdle parts with
  | case1 => rfl
  | case2 first => rfl
  | case3 segment next rest hidle ih =>
      have hnowhere : segment = [] ∨ segment = ['.'] := by simpa [isIdle] using hidle
      rw [ih, List.reverse_cons (a := segment), List.foldl_append, List.foldl_cons,
        List.foldl_nil, step_idle _ hnowhere]
  | case4 segment next rest hidle => rfl

theorem head?_above (last : Text) (next : Text) (rest : List Text) :
    (above (last :: next :: rest)).head? = some (unparts (dropIdle (next :: rest))) := by
  induction rest generalizing last next with
  | nil => simp [above, dropIdle]
  | cons other rest ih =>
      rw [above, dropIdle]
      by_cases hidle : isIdle next = true
      · rw [if_pos ⟨hidle, List.cons_ne_nil _ _⟩, if_pos hidle, ih]
      · rw [if_neg fun h => hidle h.1, if_neg hidle, List.head?_cons]

theorem dropIdle_subset (parts : List Text) : dropIdle parts ⊆ parts := by
  fun_induction dropIdle parts with
  | case1 => exact List.Subset.refl _
  | case2 first => exact List.Subset.refl _
  | case3 segment next rest hidle ih => exact fun part hpart => List.mem_cons_of_mem _ (ih hpart)
  | case4 segment next rest hidle => exact List.Subset.refl _

/-- An empty part is dropped unless it is the root. -/
theorem eq_nil_of_dropIdle_eq_cons {parts rest : List Text} (h : dropIdle parts = [] :: rest) :
    rest = [] := by
  fun_induction dropIdle parts with
  | case1 => cases h
  | case2 first => exact (List.cons.inj h).2.symm
  | case3 segment next others hidle ih => exact ih h
  | case4 segment next others hidle =>
      obtain ⟨rfl, -⟩ := List.cons.inj h
      exact absurd rfl hidle

theorem segments_unparts {parts : List Text} (hne : parts ≠ []) (hroot : parts ≠ [[]])
    (hslash : ∀ part ∈ parts, '/' ∉ part) : segments (unparts parts) = parts.reverse := by
  have hjoin : unparts parts = Text.join ['/'] parts.reverse := by
    unfold unparts
    split
    · exact absurd rfl hroot
    · rfl
  rw [hjoin]
  apply Text.split_join
  · simpa using hne
  · simpa using hslash

theorem getLast?_unparts_ne {parts : List Text} (hroot : dropIdle parts ≠ [[]])
    (hslash : ∀ part ∈ parts, '/' ∉ part) :
    (unparts (dropIdle parts)).getLast? ≠ some '/' := by
  intro hlast
  by_cases hne : parts = []
  · subst hne
    exact absurd hlast (by decide)
  · have hsegments := segments_unparts (dropIdle_ne_nil hne) hroot
      fun part hpart => hslash part (dropIdle_subset parts hpart)
    obtain ⟨front, hfront⟩ := List.getLast?_eq_some_iff.mp hlast
    rw [hfront, segments_append_slash] at hsegments
    have hempty : segments [] = [[]] := rfl
    have hcons : dropIdle parts = [] :: (segments front).reverse := by
      rw [← List.reverse_reverse (dropIdle parts), ← hsegments, hempty]
      simp
    apply hroot
    rw [hcons, eq_nil_of_dropIdle_eq_cons hcons]

theorem parts_of_segments {t last : Text} {front : List Text}
    (h : segments t = front ++ [last]) (hlast : Tree.isName last = true) :
    parts t = last :: front.reverse := by
  have hidle : isIdle last = false := by
    have hname := (Tree.isName_iff.mp hlast).1
    simpa [isIdle] using hname
  have hsplit : Text.split '/' t = front ++ [last] := h
  rw [parts, hsplit, List.reverse_append, List.reverse_singleton, List.singleton_append]
  cases front.reverse with
  | nil => rfl
  | cons next rest => rw [dropIdle, hidle, if_neg Bool.false_ne_true]

theorem fileName?_of_segments {t last : Text} {front : List Text}
    (h : segments t = front ++ [last]) (hlast : Tree.isName last = true) :
    fileName? t = some last := by
  have hname := Tree.isName_iff.mp hlast
  have hkeep : (isIdle last || last == ['.', '.']) = false := by
    simpa [isIdle, not_or] using hname
  rw [fileName?, parts_of_segments h hlast]
  show (if (isIdle last || last == ['.', '.']) = true then none else some last) = some last
  rw [hkeep, if_neg Bool.false_ne_true]

/-- With another name, a path keeps its directory, up to idle parts. -/
theorem segments_withFileName {t last name : Text} {front : List Text}
    (h : segments t = front ++ [last]) (hlast : Tree.isName last = true) (hname : '/' ∉ name) :
    segments (withFileName t name) = (dropIdle front.reverse).reverse ++ [name] := by
  have hsingle : segments name = [name] := Text.split_of_not_mem hname
  have hslash : ∀ part ∈ front.reverse, '/' ∉ part := by
    intro part hpart
    apply Text.not_mem_of_mem_split (t := t)
    show part ∈ segments t
    rw [h]
    exact List.mem_append_left _ (List.mem_reverse.mp hpart)
  have hparent : parent? t = (above (last :: front.reverse)).head? := by
    rw [parent?, parts_of_segments h hlast]
  rw [withFileName, fileName?_of_segments h hlast, Option.isSome_some, if_pos rfl, hparent]
  cases hback : front.reverse with
  | nil =>
      have hempty : last ≠ [] := fun hnil => (Tree.isName_iff.mp hlast).1 (.inl hnil)
      simp [above, hempty, dropIdle, hsingle]
  | cons next rest =>
      rw [head?_above, Option.getD_some]
      rw [hback] at hslash
      by_cases hroot : dropIdle (next :: rest) = [[]]
      · rw [hroot]
        have hsplit : segments ('/' :: name) = [] :: segments name :=
          segments_append_slash [] name
        simpa [unparts, hsingle] using hsplit
      · have hsegments := segments_unparts (dropIdle_ne_nil (List.cons_ne_nil next rest)) hroot
          fun part hpart => hslash part (dropIdle_subset _ hpart)
        have hbase : unparts (dropIdle (next :: rest)) ≠ [] := by
          intro hnil
          rw [hnil] at hsegments
          exact hroot (List.reverse_eq_iff.mp hsegments.symm)
        simp only [if_neg hbase, if_neg (getLast?_unparts_ne hroot hslash)]
        rw [segments_append_slash, hsegments, hsingle]

end Path.Native

namespace Files

/-- The name under which the text of a file with the name is written first. -/
def scratchName (tag name : Text) : Text := '.' :: name ++ '.' :: tag ++ ".tmp".toList

theorem length_lt_length_scratchName (tag name : Text) :
    name.length + 5 < (scratchName tag name).length := by
  have hending : ".tmp".toList.length = 4 := rfl
  rw [scratchName, List.length_append, List.length_append, List.length_cons, List.length_cons,
    hending]
  omega

theorem isName_scratchName (tag name : Text) : Tree.isName (scratchName tag name) = true := by
  have hlength := length_lt_length_scratchName tag name
  apply Tree.isName_iff.mpr
  refine ⟨?_, ?_⟩
  · rintro (hnil | hdot)
    · rw [hnil] at hlength
      exact absurd hlength (by simp)
    · rw [hdot] at hlength
      exact absurd hlength (by simp)
  · intro hup
    rw [hup] at hlength
    exact absurd hlength (by simp)

section

variable {cwd : Place} {tag path last : Text} {front : List Text}

theorem slash_not_mem_scratchName {tag name : Text} (htag : '/' ∉ tag) (hname : '/' ∉ name) :
    '/' ∉ scratchName tag name := by
  simp [scratchName, hname, htag]

theorem segments_temporaryPath (h : Path.segments path = front ++ [last])
    (hlast : Tree.isName last = true) (htag : '/' ∉ tag) :
    Path.segments (temporaryPath tag path) =
      (Path.Native.dropIdle front.reverse).reverse ++ [scratchName tag last] := by
  have hslash : '/' ∉ last := by
    apply Text.not_mem_of_mem_split (t := path)
    show last ∈ Path.segments path
    rw [h]
    exact List.mem_append_right _ (List.mem_singleton_self last)
  have hname : temporaryName tag path = scratchName tag last := by
    rw [temporaryName, Path.Native.fileName?_of_segments h hlast]
    rfl
  rw [temporaryPath, hname]
  exact Path.Native.segments_withFileName h hlast (slash_not_mem_scratchName htag hslash)

theorem start_temporaryPath (h : Path.segments path = front ++ [last])
    (hlast : Tree.isName last = true) (htag : '/' ∉ tag) :
    Tree.start cwd (temporaryPath tag path) = Tree.start cwd path := by
  have hfirst : (temporaryPath tag path).head? = some '/' ↔ path.head? = some '/' := by
    rw [Path.head?_eq_slash_iff (segments_temporaryPath h hlast htag), Path.head?_eq_slash_iff h,
      List.head?_reverse, Path.Native.getLast?_dropIdle, List.getLast?_reverse]
  simp only [Tree.start, hfirst]

theorem placeOf_temporaryPath (h : Path.segments path = front ++ [last])
    (hlast : Tree.isName last = true) (htag : '/' ∉ tag) :
    Tree.placeOf cwd (temporaryPath tag path) =
      front.foldl Path.step (Tree.start cwd path) ++ [scratchName tag last] := by
  have hscratch := Tree.isName_iff.mp (isName_scratchName tag last)
  rw [Tree.placeOf, start_temporaryPath h hlast htag, segments_temporaryPath h hlast htag,
    List.foldl_append, List.foldl_cons, List.foldl_nil, Path.Native.foldl_step_dropIdle,
    List.reverse_reverse, Path.step_name _ hscratch.1 hscratch.2]

end

end Files

end Partials
