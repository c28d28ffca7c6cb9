import Partials.Proofs.Margin.Cropping

/-!
# Fragments under a margin

A fragment is written into a page with the margin of the page in front of its lines. Normalizing
takes that margin off again, whatever it is: `normalizeLines_written`.
-/

namespace Partials

namespace Margin

/-- The text consists of spaces and tabs. -/
def IsPad (t : Text) : Prop := ∀ c ∈ t, c = ' ' ∨ c = '\t'

/-- A line of a fragment: empty, or a solid text behind spaces. -/
inductive IsLine : Text → Prop
  | empty : IsLine []
  | text (depth : Nat) {t : Text} (hsolid : t.Solid) (hnewline : '\n' ∉ t) :
      IsLine (List.replicate depth ' ' ++ t)

end Margin

/-- Lines that start and end with a line that is not empty. -/
structure Fragment where
  lines : List Text
  isLine : ∀ line ∈ lines, Margin.IsLine line
  head : ∃ line ∈ lines.head?, line ≠ []
  last : ∃ line ∈ lines.getLast?, line ≠ []

/-- Some line of the fragment is a text without spaces in front. -/
def Fragment.Flush (f : Fragment) : Prop := ∃ line ∈ f.lines, line.Solid

namespace Margin

/-- How a line of a fragment may be written under a margin: an empty line as any spaces and tabs,
another behind the margin. -/
inductive WrittenUnder (margin : Text) : Text → Text → Prop
  | empty {pad : Text} (hpad : IsPad pad) : WrittenUnder margin [] pad
  | text {line : Text} (hline : line ≠ []) : WrittenUnder margin line (margin ++ line)

theorem IsPad.isBlank {t : Text} (h : IsPad t) : ∀ c ∈ t, isBlank c = true := by
  intro c hc
  rcases h c hc with rfl | rfl <;> rfl

theorem IsPad.not_mem {t : Text} (h : IsPad t) {c : Char} (hspace : c ≠ ' ') (htab : c ≠ '\t') :
    c ∉ t := by
  intro hc
  rcases h c hc with rfl | rfl
  · exact hspace rfl
  · exact htab rfl

theorem isPad_replicate (n : Nat) : IsPad (List.replicate n ' ') := by
  intro c hc
  exact .inl (List.eq_of_mem_replicate hc)

theorem replaceChar_replicate_space (new : Text) (n : Nat) :
    Text.replaceChar '\t' new (List.replicate n ' ') = List.replicate n ' ' := by
  induction n with
  | zero => rfl
  | succ n ih =>
      rw [List.replicate_succ, ← List.singleton_append, replaceChar_append, ih]
      rfl

/-- The tabs of the margin are expanded, and the line behind it stays. -/
theorem expandTabs_margin_append (indent : Text) {margin line : Text} (hmargin : IsPad margin)
    (hline : IsLine line) (hne : line ≠ []) :
    expandTabs indent (Text.trimEnd (margin ++ line)) =
      Text.replaceChar '\t' indent margin ++ line := by
  cases hline with
  | empty => exact absurd rfl hne
  | text depth hsolid _ =>
      have hblanks : ∀ c ∈ margin ++ List.replicate depth ' ', Partials.isBlank c = true := by
        intro c hc
        rcases List.mem_append.mp hc with hc | hc
        · exact hmargin.isBlank c hc
        · exact (isPad_replicate depth).isBlank c hc
      rw [← List.append_assoc, expandTabs_append_solid indent hblanks hsolid, replaceChar_append,
        replaceChar_replicate_space, List.append_assoc]

theorem narrower_map_add (n : Nat) (v w : Option Nat) :
    narrower (v.map (n + ·)) (w.map (n + ·)) = (narrower v w).map (n + ·) := by
  cases v with
  | none => cases w <;> rfl
  | some v =>
      cases w with
      | none => rfl
      | some w => simp [narrower, Nat.add_min_add_left]

/-- A margin in front of the lines is shared. -/
theorem sharedWidth?_raise {offset : Text} (hoffset : ∀ c ∈ offset, isBlank c = true)
    (lines : List Text) :
    sharedWidth? (raise offset lines) = (sharedWidth? lines).map (offset.length + ·) := by
  induction lines with
  | nil => rfl
  | cons line lines ih =>
      have hline : width? (if line = [] then [] else offset ++ line) =
          (width? line).map (offset.length + ·) := by
        split
        · next hempty =>
          subst hempty
          rfl
        · exact width?_append hoffset line
      unfold raise at ih ⊢
      rw [List.map_cons, sharedWidth?, sharedWidth?, ih, hline, narrower_map_add]

theorem crop_raise (offset : Text) (lines : List Text) (width : Nat) :
    crop (raise offset lines) (some (offset.length + width)) = crop lines (some width) := by
  simp only [crop, raise, List.map_map]
  refine List.map_congr_left fun line _ => ?_
  rw [Function.comp_apply]
  split
  · next hempty => simp [hempty]
  · rw [← List.drop_drop, List.drop_left]

variable {f : Fragment}

theorem exists_sharedWidth?_eq (f : Fragment) : ∃ width, sharedWidth? f.lines = some width := by
  obtain ⟨line, hline, hne⟩ := f.head
  have hmem : line ∈ f.lines := List.mem_of_mem_head? hline
  cases hwidth : sharedWidth? f.lines with
  | some width => exact ⟨width, rfl⟩
  | none =>
      have hnone := sharedWidth?_eq_none_iff.mp hwidth line hmem
      cases f.isLine line hmem with
      | empty => exact absurd rfl hne
      | text depth hsolid _ =>
          rw [width?_append (isPad_replicate depth).isBlank, width?_of_isFlush hsolid.head] at hnone
          cases hnone

/-- A fragment with a line at its left edge has no margin to lose. -/
theorem crop_sharedWidth?_of_flush (h : f.Flush) :
    crop f.lines (sharedWidth? f.lines) = f.lines := by
  obtain ⟨line, hline, hsolid⟩ := h
  exact crop_of_flush (.inr ⟨line, hline, hsolid.head⟩)

theorem newline_not_mem_of_isLine {line : Text} (h : IsLine line) : '\n' ∉ line := by
  cases h with
  | empty => exact List.not_mem_nil
  | text depth _ hnewline =>
      rw [List.mem_append, not_or]
      exact ⟨(isPad_replicate depth).not_mem (by decide) (by decide), hnewline⟩

theorem newline_not_mem_of_writtenUnder {margin line written : Text} (hmargin : IsPad margin)
    (hline : IsLine line) (h : WrittenUnder margin line written) : '\n' ∉ written := by
  cases h with
  | empty hpad => exact hpad.not_mem (by decide) (by decide)
  | text _ =>
      rw [List.mem_append, not_or]
      exact ⟨hmargin.not_mem (by decide) (by decide), newline_not_mem_of_isLine hline⟩

theorem written_ne_nil {margin : Text} {written : List Text}
    (h : List.Forall₂ (WrittenUnder margin) f.lines written) : written ≠ [] := by
  obtain ⟨line, hline, -⟩ := f.head
  rintro rfl
  rw [List.forall₂_nil_right_iff.mp h] at hline
  cases hline

theorem exists_solid_of_isLine {line : Text} (h : IsLine line) (hne : line ≠ []) :
    ∃ front t : Text, line = front ++ t ∧ IsPad front ∧ t.Solid := by
  cases h with
  | empty => exact absurd rfl hne
  | text depth hsolid _ => exact ⟨_, _, rfl, isPad_replicate depth, hsolid⟩

/-- The text of a written fragment starts with its first line, behind the margin. -/
theorem exists_join_eq_margin_append {margin : Text} {written : List Text}
    (h : List.Forall₂ (WrittenUnder margin) f.lines written) :
    ∃ line rest, IsLine line ∧ line ≠ [] ∧
      Text.join ['\n'] written = margin ++ line ++ rest := by
  obtain ⟨line, hline, hne⟩ := f.head
  obtain ⟨lines, hlines⟩ := List.head?_eq_some_iff.mp hline
  have hisLine := f.isLine line (List.mem_of_mem_head? hline)
  rw [hlines] at h
  cases h with
  | @cons _ out _ outs hwritten _ =>
      cases hwritten with
      | empty _ => exact absurd rfl hne
      | text _ =>
          by_cases houts : outs = []
          · exact ⟨line, [], hisLine, hne, by simp [houts, Text.join]⟩
          · refine ⟨line, ['\n'] ++ Text.join ['\n'] outs, hisLine, hne, ?_⟩
            rw [Text.join_cons houts, List.append_assoc]

/-- The text of a written fragment ends with a solid text, that of its last line. -/
theorem exists_join_eq_append_solid {margin : Text} {written : List Text}
    (h : List.Forall₂ (WrittenUnder margin) f.lines written) :
    ∃ front t : Text, Text.join ['\n'] written = front ++ t ∧ t.Solid := by
  obtain ⟨line, hline, hne⟩ := f.last
  obtain ⟨lines, hlines⟩ := List.getLast?_eq_some_iff.mp hline
  obtain ⟨pad, t, hsplit, -, hsolid⟩ :=
    exists_solid_of_isLine (f.isLine line (List.mem_of_getLast? hline)) hne
  rw [hlines, ← List.forall₂_reverse_iff, List.reverse_append] at h
  obtain ⟨out, outs, hwritten, -, hout⟩ := List.forall₂_cons_left_iff.mp h
  have hwritten' : written = outs.reverse ++ [out] := by
    rw [← List.reverse_reverse written, hout, List.reverse_cons]
  cases hwritten with
  | empty _ => exact absurd rfl hne
  | text _ =>
      by_cases houts : outs.reverse = []
      · refine ⟨margin ++ pad, t, ?_, hsolid⟩
        rw [hwritten', houts, hsplit]
        exact (List.append_assoc margin pad t).symm
      · refine ⟨Text.join ['\n'] outs.reverse ++ ['\n'] ++ margin ++ pad, t, ?_, hsolid⟩
        rw [hwritten', Text.join_append houts (List.cons_ne_nil _ _), hsplit]
        simp only [Text.join, List.append_assoc]

/-- No written line ends inside a line ending. -/
theorem getLast?_ne_return_of_writtenUnder {margin line out : Text} (hline : IsLine line)
    (h : WrittenUnder margin line out) : out.getLast? ≠ some '\r' := by
  cases h with
  | empty hpad =>
      intro hlast
      exact hpad.not_mem (by decide) (by decide) (List.mem_of_getLast? hlast)
  | text hne =>
      obtain ⟨pad, t, rfl, -, hsolid⟩ := exists_solid_of_isLine hline hne
      obtain ⟨cs, c, rfl, hc⟩ := hsolid.last
      rw [← List.append_assoc, ← List.append_assoc, List.getLast?_concat]
      rintro ⟨⟩
      cases hc

/-- Lines written under a margin are, one by one, the fragment's lines behind that margin. -/
theorem map_expandTabs_written (indent : Text) {margin : Text} (hmargin : IsPad margin)
    {lines written : List Text} (hlines : ∀ line ∈ lines, IsLine line)
    (h : List.Forall₂ (WrittenUnder margin) lines written) :
    written.map (fun line => expandTabs indent (Text.trimEnd line)) =
      raise (Text.replaceChar '\t' indent margin) lines := by
  induction h with
  | nil => rfl
  | @cons line out lines written hwritten _ ih =>
      have hout : expandTabs indent (Text.trimEnd out) =
          if line = [] then [] else Text.replaceChar '\t' indent margin ++ line := by
        cases hwritten with
        | empty hpad => exact expandTabs_blanks hpad.isBlank
        | text hne =>
            rw [if_neg hne]
            exact expandTabs_margin_append indent hmargin (hlines line List.mem_cons_self) hne
      rw [List.map_cons, hout, ih fun other hother => hlines other (List.mem_cons_of_mem _ hother)]
      rfl

/-- What the lines of a fragment are normalized to does not depend on the margin they are written
under. -/
theorem normalizeLines_written {indent margin : Text} (hindent : ∀ c ∈ indent, isBlank c = true)
    (hmargin : IsPad margin) {written : List Text}
    (h : List.Forall₂ (WrittenUnder margin) f.lines written) :
    normalizeLines indent (Text.join ['\n'] written) = crop f.lines (sharedWidth? f.lines) := by
  have hsplit : Text.split '\n' (Text.join ['\n'] written) = written := by
    refine Text.split_join (written_ne_nil h) fun out hout => ?_
    obtain ⟨line, hline, hwritten⟩ := exists_of_mem_of_forall₂ h hout
    exact newline_not_mem_of_writtenUnder hmargin (f.isLine line hline) hwritten
  have hoffset : ∀ c ∈ Text.replaceChar '\t' indent margin, isBlank c = true := by
    intro c hc
    rcases mem_of_mem_replaceChar hc with hc | hc
    · exact hindent c hc
    · exact hmargin.isBlank c hc
  obtain ⟨width, hwidth⟩ := exists_sharedWidth?_eq f
  unfold normalizeLines
  dsimp only
  rw [hsplit, map_expandTabs_written indent hmargin f.isLine h, sharedWidth?_raise hoffset, hwidth,
    Option.map_some]
  exact crop_raise _ _ width

end Margin

end Partials
