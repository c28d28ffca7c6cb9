import Partials.Proofs.Margin.Fragments
import Partials.Proofs.Margin.NormalForm

/-!
# Cropping and raising

Lines that stand behind one margin lose this margin and no more when they are normalized. Raising
the normalized lines by the margin therefore gives the lines back, with nothing left of the blanks
of a blank line: `raise_normalizeLines`.
-/

namespace Partials.Margin

/-- A line of blanks only, or a solid text behind the margin and further blanks, none of them a
tab. -/
inductive StandsBehind (margin : Text) : Text → Prop
  | blank {line : Text} (hline : ∀ c ∈ line, isBlank c = true) : StandsBehind margin line
  | text {deeper body : Text} (hdeeper : ∀ c ∈ deeper, isBlank c = true) (htab : '\t' ∉ deeper)
      (hbody : body.Solid) : StandsBehind margin (margin ++ deeper ++ body)

/-- The line, or the empty line in place of a blank one. -/
def emptyIfBlank (line : Text) : Text := if line.all isBlank then [] else line

theorem emptyIfBlank_of_blank {line : Text} (hline : ∀ c ∈ line, isBlank c = true) :
    emptyIfBlank line = [] :=
  if_pos (List.all_eq_true.mpr hline)

theorem emptyIfBlank_append_solid (front : Text) {body : Text} (hbody : body.Solid) :
    emptyIfBlank (front ++ body) = front ++ body := by
  obtain ⟨c, cs, rfl, hc⟩ := hbody.head
  apply if_neg
  simp [hc]

/-- Expanding leaves a line as it is, unless it is blank. -/
theorem StandsBehind.expandTabs_eq {indent margin line : Text}
    (hmargin : ∀ c ∈ margin, isBlank c = true) (htab : '\t' ∉ margin)
    (h : StandsBehind margin line) :
    expandTabs indent (Text.trimEnd line) = emptyIfBlank line := by
  cases h with
  | blank hline => rw [expandTabs_blanks hline, emptyIfBlank_of_blank hline]
  | @text deeper body hdeeper htab' hbody =>
      have hlead : ∀ c ∈ margin ++ deeper, isBlank c = true := by
        simpa only [List.forall_mem_append] using ⟨hmargin, hdeeper⟩
      have hnotab : '\t' ∉ margin ++ deeper := by
        simp [htab, htab']
      rw [expandTabs_append_solid indent hlead hbody,
        replaceChar_eq_self fun hmem => absurd hmem hnotab, emptyIfBlank_append_solid _ hbody]

/-- The line is what the margin raises its rest to. -/
theorem StandsBehind.emptyIfBlank_eq {margin line : Text} (h : StandsBehind margin line) :
    emptyIfBlank line =
      if (emptyIfBlank line).drop margin.length = [] then []
      else margin ++ (emptyIfBlank line).drop margin.length := by
  cases h with
  | blank hline => simp [emptyIfBlank_of_blank hline]
  | @text deeper body _ _ hbody =>
      obtain ⟨c, cs, rfl, hc⟩ := hbody.head
      rw [emptyIfBlank_append_solid _ hbody]
      simp

theorem expandedLines_join {indent margin : Text} {lines : List Text}
    (hmargin : ∀ c ∈ margin, isBlank c = true) (htab : '\t' ∉ margin) (hne : lines ≠ [])
    (hnewline : ∀ line ∈ lines, '\n' ∉ line) (hlines : ∀ line ∈ lines, StandsBehind margin line) :
    expandedLines indent (Text.join ['\n'] lines) = lines.map emptyIfBlank := by
  unfold expandedLines
  rw [Text.split_join hne hnewline]
  apply List.map_congr_left
  intro line hline
  exact (hlines line hline).expandTabs_eq hmargin htab

theorem exists_raise_eq {margin : Text} {lines : List Text}
    (hlines : ∀ line ∈ lines, StandsBehind margin line)
    (hflush : ∃ body : Text, body.Solid ∧ margin ++ body ∈ lines) :
    ∃ rests, raise margin rests = lines.map emptyIfBlank ∧ ∃ rest ∈ rests, IsFlush rest := by
  refine ⟨lines.map fun line => (emptyIfBlank line).drop margin.length, ?_, ?_⟩
  · simp only [raise, List.map_map]
    apply List.map_congr_left
    intro line hline
    exact (hlines line hline).emptyIfBlank_eq.symm
  · obtain ⟨body, hbody, hmem⟩ := hflush
    refine ⟨body, List.mem_map.mpr ⟨_, hmem, ?_⟩, hbody.head⟩
    rw [emptyIfBlank_append_solid _ hbody, List.drop_left]

/-- Cropping takes off what raising has put in front of lines of which one stood at the left
edge. -/
theorem crop_sharedWidth?_raise {margin : Text} (hmargin : ∀ c ∈ margin, isBlank c = true)
    {lines : List Text} (hflush : ∃ line ∈ lines, IsFlush line) :
    crop (raise margin lines) (sharedWidth? (raise margin lines)) = lines := by
  have hcrop : crop lines (sharedWidth? lines) = lines := crop_of_flush (.inr hflush)
  rw [sharedWidth?_raise hmargin]
  cases hwidth : sharedWidth? lines with
  | none =>
      obtain ⟨line, hline, hhead⟩ := hflush
      have hnone := sharedWidth?_eq_none_iff.mp hwidth line hline
      rw [width?_of_isFlush hhead] at hnone
      cases hnone
  | some width =>
      rw [hwidth] at hcrop
      exact (crop_raise margin lines width).trans hcrop

/-- Cropping and raising by the margin undo each other: lines that stand behind a margin, with the
text of one of them directly behind it, come back as they were, except that a blank line is empty.
The margin may be of any blanks but tabs, and there may be any number of lines. -/
theorem raise_normalizeLines (indent : Text) {margin : Text} {lines : List Text}
    (hmargin : ∀ c ∈ margin, isBlank c = true) (htab : '\t' ∉ margin)
    (hnewline : ∀ line ∈ lines, '\n' ∉ line) (hlines : ∀ line ∈ lines, StandsBehind margin line)
    (hflush : ∃ body : Text, body.Solid ∧ margin ++ body ∈ lines) :
    raise margin (normalizeLines indent (Text.join ['\n'] lines)) = lines.map emptyIfBlank := by
  have hne : lines ≠ [] := by
    obtain ⟨body, -, hmem⟩ := hflush
    exact List.ne_nil_of_mem hmem
  obtain ⟨rests, hrests, hrest⟩ := exists_raise_eq hlines hflush
  have hexpanded : expandedLines indent (Text.join ['\n'] lines) = raise margin rests :=
    (expandedLines_join hmargin htab hne hnewline hlines).trans hrests.symm
  rw [normalizeLines_eq_crop, hexpanded, crop_sharedWidth?_raise hmargin hrest, hrests]

/-- Lines behind an ideographic space and a no-break space, the last of them behind a wide space
more, and a blank line between them that holds a tab. -/
def spacedLines : List Text :=
  ["\u3000\u00a0a".toList, "\t \r".toList, [], "\u3000\u00a0\u2003b c".toList]

theorem standsBehind_spacedLines :
    ∀ line ∈ spacedLines, StandsBehind "\u3000\u00a0".toList line := by
  intro line hline
  simp only [spacedLines, List.mem_cons, List.not_mem_nil, or_false] at hline
  rcases hline with rfl | rfl | rfl | rfl
  · exact @StandsBehind.text _ [] ['a'] nofun nofun ⟨⟨'a', [], rfl, rfl⟩, ⟨[], 'a', rfl, rfl⟩⟩
  · exact .blank (List.all_eq_true.mp rfl)
  · exact .blank nofun
  · exact @StandsBehind.text _ ['\u2003'] ['b', ' ', 'c'] (List.all_eq_true.mp rfl) (by decide)
      ⟨⟨'b', [' ', 'c'], rfl, rfl⟩, ⟨['b', ' '], 'c', rfl, rfl⟩⟩

theorem raise_normalizeLines_spacedLines :
    (∀ c ∈ "\u3000\u00a0".toList, isBlank c = true) ∧
      normalizeLines ['_'] (Text.join ['\n'] spacedLines) = [['a'], [], [], "\u2003b c".toList] ∧
      raise "\u3000\u00a0".toList [['a'], [], [], "\u2003b c".toList] =
        ["\u3000\u00a0a".toList, [], [], "\u3000\u00a0\u2003b c".toList] := by
  have hmargin : ∀ c ∈ "\u3000\u00a0".toList, isBlank c = true := List.all_eq_true.mp rfl
  have hlines : normalizeLines ['_'] (Text.join ['\n'] spacedLines) =
      [['a'], [], [], "\u2003b c".toList] := by decide
  have hraised := raise_normalizeLines ['_'] hmargin (by decide) (by decide)
    standsBehind_spacedLines
    ⟨['a'], ⟨⟨'a', [], rfl, rfl⟩, ⟨[], 'a', rfl, rfl⟩⟩, List.mem_cons_self⟩
  rw [hlines] at hraised
  exact ⟨hmargin, hlines, hraised⟩

end Partials.Margin
