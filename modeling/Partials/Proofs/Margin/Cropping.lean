import Partials.Proofs.Margin.Lines

/-!
# Cropping the shared margin

Normalizing expands each line by itself (`Expands`) and then takes one and the same number of blanks
off all of them (`CroppedBy`), so what one line is deeper than another is kept, and some line ends
up at the left edge: `normalizeLines_keeps_depth`.
-/

namespace Partials.Margin

/-- What becomes of a line before the margin is cropped: of a line of blanks nothing is left, and
another one loses the blanks at its end and has the tabs in front of its text written as
`indent`. -/
inductive Expands (indent : Text) : Text → Text → Prop
  | blank {line : Text} (hline : ∀ c ∈ line, isBlank c = true) : Expands indent line []
  | text {lead body trail : Text} (hlead : ∀ c ∈ lead, isBlank c = true) (hbody : body.Solid)
      (htrail : ∀ c ∈ trail, isBlank c = true) :
      Expands indent (lead ++ body ++ trail) (Text.replaceChar '\t' indent lead ++ body)

/-- The second line is the first without its first `width` characters, which are blank; a line of
blanks has become empty. -/
inductive CroppedBy (width : Nat) : Text → Text → Prop
  | blank {line : Text} (hline : ∀ c ∈ line, isBlank c = true) : CroppedBy width line []
  | text {margin rest : Text} (hmargin : ∀ c ∈ margin, isBlank c = true)
      (hwidth : margin.length = width) (hrest : ∃ c ∈ rest, isBlank c = false) :
      CroppedBy width (margin ++ rest) rest

/-- The text starts with a character that is not blank. -/
def IsFlush (t : Text) : Prop := ∃ c cs, t = c :: cs ∧ isBlank c = false

/-- The lines of a content before their shared margin is cropped. -/
def expandedLines (indent content : Text) : List Text :=
  (Text.split '\n' content).map fun line => expandTabs indent (Text.trimEnd line)

theorem normalizeLines_eq_crop (indent content : Text) :
    normalizeLines indent content =
      crop (expandedLines indent content) (sharedWidth? (expandedLines indent content)) := rfl

theorem expands_expandTabs (indent line : Text) :
    Expands indent line (expandTabs indent (Text.trimEnd line)) := by
  rcases Text.blank_or_solid line with hblank | ⟨lead, body, trail, rfl, hlead, hbody, htrail⟩
  · rw [expandTabs_blanks hblank]
    exact .blank hblank
  · rw [Text.trimEnd_append_blanks _ htrail, expandTabs_append_solid indent hlead hbody]
    exact .text hlead hbody htrail

theorem Expands.trimmed {indent line out : Text} (h : Expands indent line out) : out.Trimmed := by
  cases h with
  | blank _ => exact Text.trimmed_nil
  | text _ hbody _ =>
      apply hbody.trimmed.append
      obtain ⟨c, cs, rfl, -⟩ := hbody.head
      exact List.cons_ne_nil c cs

theorem forall₂_expands (indent content : Text) :
    List.Forall₂ (Expands indent) (Text.split '\n' content) (expandedLines indent content) := by
  apply List.forall₂_map_right_iff.mpr
  apply List.forall₂_same.mpr
  intro line _
  exact expands_expandTabs indent line

theorem trimmed_of_mem_expandedLines {indent content : Text} :
    ∀ line ∈ expandedLines indent content, line.Trimmed := by
  intro line hline
  obtain ⟨source, -, rfl⟩ := List.mem_map.mp hline
  exact (expands_expandTabs indent source).trimmed

theorem width?_eq_none_iff {line : Text} :
    width? line = none ↔ ∀ c ∈ line, isBlank c = true := by
  unfold width? Text.trimStart
  rw [← List.dropWhile_eq_nil_iff]
  split
  · next hnil => exact iff_of_true rfl hnil
  · next hcons => exact iff_of_false (by simp) hcons

theorem width?_append {margin : Text} (hmargin : ∀ c ∈ margin, isBlank c = true) (line : Text) :
    width? (margin ++ line) = (width? line).map (margin.length + ·) := by
  unfold width? Text.trimStart Text.lead
  rw [List.dropWhile_append_of_pos hmargin, List.takeWhile_append_of_pos hmargin]
  split
  · rfl
  · simp

theorem width?_of_isFlush {line : Text} (h : IsFlush line) : width? line = some 0 := by
  obtain ⟨c, rest, rfl, hc⟩ := h
  simp [width?, Text.trimStart, Text.lead, hc]

theorem width?_append_cons {margin : Text} (hmargin : ∀ c ∈ margin, isBlank c = true) {c : Char}
    (hc : isBlank c = false) (rest : Text) : width? (margin ++ c :: rest) = some margin.length := by
  rw [width?_append hmargin, width?_of_isFlush ⟨c, rest, rfl, hc⟩]
  rfl

theorem width?_eq_some_iff {line : Text} {width : Nat} :
    width? line = some width ↔
      ∃ margin c rest, line = margin ++ c :: rest ∧ (∀ d ∈ margin, isBlank d = true) ∧
        isBlank c = false ∧ margin.length = width := by
  constructor
  · intro h
    have hsign : ∃ c ∈ line, isBlank c = false := by
      by_contra hnot
      have hnone : width? line = none := by
        apply width?_eq_none_iff.mpr
        intro c hmem
        by_contra hc
        exact hnot ⟨c, hmem, Bool.not_eq_true _ ▸ hc⟩
      rw [hnone] at h
      cases h
    obtain ⟨margin, c, rest, rfl, hmargin, hc, -⟩ := Text.exists_eq_append_cons isBlank hsign
    rw [width?_append_cons hmargin hc] at h
    exact ⟨margin, c, rest, rfl, hmargin, hc, Option.some.inj h⟩
  · rintro ⟨margin, c, rest, rfl, hmargin, hc, rfl⟩
    exact width?_append_cons hmargin hc rest

/-- The shared width is the width of some line. -/
theorem exists_mem_width?_eq {lines : List Text} {width : Nat}
    (h : sharedWidth? lines = some width) : ∃ line ∈ lines, width? line = some width := by
  induction lines generalizing width with
  | nil => cases h
  | cons first lines ih =>
      rw [sharedWidth?] at h
      cases hfirst : width? first with
      | none =>
          rw [hfirst] at h
          obtain ⟨line, hline, hwidth⟩ := ih h
          exact ⟨line, List.mem_cons_of_mem first hline, hwidth⟩
      | some v =>
          cases hrest : sharedWidth? lines with
          | none =>
              rw [hfirst, hrest] at h
              exact ⟨first, List.mem_cons_self, hfirst.trans h⟩
          | some w =>
              rw [hfirst, hrest, narrower, Option.some.injEq] at h
              rcases Nat.le_total v w with hle | hle
              · rw [Nat.min_eq_left hle] at h
                exact ⟨first, List.mem_cons_self, hfirst.trans (congrArg some h)⟩
              · rw [Nat.min_eq_right hle] at h
                obtain ⟨line, hline, hwidth⟩ := ih (hrest.trans (congrArg some h))
                exact ⟨line, List.mem_cons_of_mem first hline, hwidth⟩

/-- No character but blanks is lost by a line that has a margin as wide as what is cropped. -/
theorem croppedBy_drop {line : Text} {margin width : Nat} (hmargin : width? line = some margin)
    (hle : width ≤ margin) : CroppedBy width line (line.drop width) := by
  obtain ⟨lead, c, rest, rfl, hlead, hc, rfl⟩ := width?_eq_some_iff.mp hmargin
  have hcropped : CroppedBy width (lead.take width ++ (lead.drop width ++ c :: rest))
      (lead.drop width ++ c :: rest) := by
    apply CroppedBy.text
    · intro d hd
      exact hlead d (List.mem_of_mem_take hd)
    · exact List.length_take_of_le hle
    · exact ⟨c, List.mem_append_right _ List.mem_cons_self, hc⟩
  rw [← List.append_assoc, List.take_append_drop] at hcropped
  rwa [List.drop_append_of_le_length hle]

/-- Lines whose ends are trimmed are cropped by one width. -/
theorem exists_forall₂_croppedBy {lines : List Text} (h : ∀ line ∈ lines, line.Trimmed) :
    ∃ width, List.Forall₂ (CroppedBy width) lines (crop lines (sharedWidth? lines)) := by
  cases hshared : sharedWidth? lines with
  | none =>
      refine ⟨0, List.forall₂_same.mpr ?_⟩
      intro line hline
      have hblank := width?_eq_none_iff.mp (sharedWidth?_eq_none_iff.mp hshared line hline)
      obtain rfl := (h line hline).eq_nil hblank
      exact .blank hblank
  | some width =>
      refine ⟨width, List.forall₂_map_right_iff.mpr (List.forall₂_same.mpr ?_)⟩
      intro line hline
      cases hwidth : width? line with
      | none =>
          have hblank := width?_eq_none_iff.mp hwidth
          obtain rfl := (h line hline).eq_nil hblank
          rw [List.drop_nil]
          exact .blank hblank
      | some margin => exact croppedBy_drop hwidth (sharedWidth?_le hshared hline hwidth)

theorem trimmed_of_mem_crop {lines : List Text} (h : ∀ line ∈ lines, line.Trimmed)
    {width : Option Nat} : ∀ out ∈ crop lines width, out.Trimmed := by
  cases width with
  | none => exact h
  | some width =>
      intro out hout
      obtain ⟨line, hline, rfl⟩ := List.mem_map.mp hout
      apply Text.Trimmed.of_append (s := line.take width)
      rw [List.take_append_drop]
      exact h line hline

theorem trimmed_of_mem_normalizeLines {indent content : Text} :
    ∀ out ∈ normalizeLines indent content, out.Trimmed :=
  trimmed_of_mem_crop trimmed_of_mem_expandedLines

theorem trimmed_of_mem_raise {offset : Text} {lines : List Text}
    (h : ∀ line ∈ lines, line.Trimmed) : ∀ out ∈ raise offset lines, out.Trimmed := by
  intro out hout
  obtain ⟨line, hline, rfl⟩ := List.mem_map.mp hout
  split
  · exact Text.trimmed_nil
  · next hne => exact (h line hline).append hne offset

/-- Some line of the shared width loses its whole margin, unless there is nothing to share. -/
theorem isBlank_or_isFlush_of_crop (lines : List Text) :
    (∀ line ∈ lines, ∀ c ∈ line, isBlank c = true) ∨
      ∃ out ∈ crop lines (sharedWidth? lines), IsFlush out := by
  cases hshared : sharedWidth? lines with
  | none =>
      refine .inl fun line hline => ?_
      exact width?_eq_none_iff.mp (sharedWidth?_eq_none_iff.mp hshared line hline)
  | some width =>
      obtain ⟨line, hline, hwidth⟩ := exists_mem_width?_eq hshared
      obtain ⟨margin, c, rest, rfl, -, hc, rfl⟩ := width?_eq_some_iff.mp hwidth
      refine .inr ⟨c :: rest, List.mem_map.mpr ⟨_, hline, ?_⟩, c, rest, rfl, hc⟩
      exact List.drop_left

/-- Lines of which one stands at the left edge, or all are empty, have no margin to lose. -/
theorem crop_of_flush {lines : List Text}
    (h : (∀ line ∈ lines, line = []) ∨ ∃ line ∈ lines, IsFlush line) :
    crop lines (sharedWidth? lines) = lines := by
  cases hshared : sharedWidth? lines with
  | none => rfl
  | some width =>
      rcases h with hempty | ⟨line, hline, hflush⟩
      · obtain ⟨line, hline, hwidth⟩ := exists_mem_width?_eq hshared
        rw [hempty line hline] at hwidth
        cases hwidth
      · have hle := sharedWidth?_le hshared hline (width?_of_isFlush hflush)
        rw [Nat.le_zero.mp hle]
        exact List.map_id lines

/-- Normalizing keeps what one line is deeper than another. Each line is expanded by itself; then
there is one width such that every line of blanks becomes empty and every other line loses that many
characters, all of them blank. Unless all lines are blank, one of them ends up at the left edge, and
no line ends in a blank, whatever is put in front of it later. -/
theorem normalizeLines_keeps_depth (indent content : Text) :
    List.Forall₂ (Expands indent) (Text.split '\n' content) (expandedLines indent content) ∧
    (∃ width, List.Forall₂ (CroppedBy width) (expandedLines indent content)
      (normalizeLines indent content)) ∧
    ((∀ line ∈ expandedLines indent content, ∀ c ∈ line, isBlank c = true) ∨
      ∃ out ∈ normalizeLines indent content, IsFlush out) ∧
    ∀ offset, ∀ out ∈ normalizeLines indent content ++ raise offset (normalizeLines indent content),
      out.Trimmed := by
  refine ⟨forall₂_expands indent content, exists_forall₂_croppedBy trimmed_of_mem_expandedLines,
    isBlank_or_isFlush_of_crop _, ?_⟩
  intro offset out hout
  rcases List.mem_append.mp hout with hout | hout
  · exact trimmed_of_mem_normalizeLines out hout
  · exact trimmed_of_mem_raise trimmed_of_mem_normalizeLines out hout

/-- A tab and an ideographic space are one character each; an indentation that is not blank ends the
margin of a line where it stands for a tab. -/
example :
    normalizeLines ['_'] "\t\tx \n\t\n\u3000 y".toList =
        ["__x".toList, [], "\u3000 y".toList] ∧
      normalizeLines [' '] "\t\tx \n\t\n\u3000 y".toList = [['x'], [], ['y']] := by
  decide

end Partials.Margin
