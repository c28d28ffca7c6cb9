import Partials.Proofs.Margin.Cropping

/-!
# Cropping by a chosen width

Lines may be cropped by any width up to the one they share. A line with text then loses blanks and
nothing else. A line of blanks has no say in the shared width, so it can be longer than what is
taken off, and what is left of it stays: `crop_of_le_sharedWidth?`.
-/

namespace Partials.Margin

/-- The second line is the first without its first `width` characters. A line with text loses
blanks; of a line of blanks nothing is left, unless it is longer than that. -/
inductive LosesWidth (width : Nat) : Text → Text → Prop
  | text {margin rest : Text} (hmargin : ∀ c ∈ margin, isBlank c = true)
      (hwidth : margin.length = width) (hrest : ∃ c ∈ rest, isBlank c = false) :
      LosesWidth width (margin ++ rest) rest
  | short {line : Text} (hline : ∀ c ∈ line, isBlank c = true) (hle : line.length ≤ width) :
      LosesWidth width line []
  | long {front behind : Text} (hfront : ∀ c ∈ front, isBlank c = true)
      (hbehind : ∀ c ∈ behind, isBlank c = true) (hwidth : front.length = width)
      (hne : behind ≠ []) : LosesWidth width (front ++ behind) behind

variable {width : Nat} {line out : Text} {lines outs : List Text}

theorem CroppedBy.eq_nil (h : CroppedBy width line out) (hline : ∀ c ∈ line, isBlank c = true) :
    out = [] := by
  cases h with
  | blank _ => rfl
  | text _ _ hrest =>
      obtain ⟨c, hc, hsign⟩ := hrest
      rw [hline c (List.mem_append_right _ hc)] at hsign
      cases hsign

theorem losesWidth_drop_of_blank (hline : ∀ c ∈ line, isBlank c = true) (width : Nat) :
    LosesWidth width line (line.drop width) := by
  rcases Nat.lt_or_ge width line.length with hlt | hle
  · have hlong : LosesWidth width (line.take width ++ line.drop width) (line.drop width) := by
      apply LosesWidth.long
      · intro c hc
        exact hline c (List.mem_of_mem_take hc)
      · intro c hc
        exact hline c (List.mem_of_mem_drop hc)
      · exact List.length_take_of_le (Nat.le_of_lt hlt)
      · exact mt List.drop_eq_nil_iff.mp (Nat.not_le_of_lt hlt)
    rwa [List.take_append_drop] at hlong
  · rw [List.drop_eq_nil_iff.mpr hle]
    exact .short hline hle

theorem CroppedBy.losesWidth (h : CroppedBy width line out) (hsign : width? line ≠ none) :
    LosesWidth width line out := by
  cases h with
  | blank hline => exact absurd (width?_eq_none_iff.mpr hline) hsign
  | text hmargin hwidth hrest => exact .text hmargin hwidth hrest

/-- A line loses what is taken off unless its margin is narrower. -/
theorem losesWidth_drop (hwidth : ∀ margin, width? line = some margin → width ≤ margin) :
    LosesWidth width line (line.drop width) := by
  cases hmargin : width? line with
  | none => exact losesWidth_drop_of_blank (width?_eq_none_iff.mp hmargin) width
  | some margin =>
      apply (croppedBy_drop hmargin (hwidth margin hmargin)).losesWidth
      rw [hmargin]
      exact Option.some_ne_none margin

/-- Nothing is left of a line of blanks exactly if it is no longer than what is taken off. -/
theorem LosesWidth.croppedBy_iff (h : LosesWidth width line out) :
    CroppedBy width line out ↔ ((∀ c ∈ line, isBlank c = true) → line.length ≤ width) := by
  cases h with
  | text hmargin hwidth hrest =>
      have hcropped := CroppedBy.text hmargin hwidth hrest
      apply iff_of_true hcropped
      intro hline
      obtain ⟨c, hc, -⟩ := hrest
      exact absurd (hcropped.eq_nil hline) (List.ne_nil_of_mem hc)
  | short hline hle => exact iff_of_true (.blank hline) fun _ => hle
  | long hfront hbehind hwidth hne =>
      have hline := List.forall_mem_append.mpr ⟨hfront, hbehind⟩
      apply iff_of_false
      · intro hcropped
        exact hne (hcropped.eq_nil hline)
      · intro hshort
        have hle := hshort hline
        have hpos := List.length_pos_iff.mpr hne
        rw [List.length_append] at hle
        omega

theorem forall₂_losesWidth_crop
    (hwidth : ∀ shared, sharedWidth? lines = some shared → width ≤ shared) :
    List.Forall₂ (LosesWidth width) lines (crop lines (some width)) := by
  refine List.forall₂_map_right_iff.mpr (List.forall₂_same.mpr ?_)
  intro line hline
  apply losesWidth_drop
  intro margin hmargin
  cases hshared : sharedWidth? lines with
  | none =>
      have hnone := sharedWidth?_eq_none_iff.mp hshared line hline
      rw [hmargin] at hnone
      cases hnone
  | some shared =>
      apply Nat.le_trans (hwidth shared hshared)
      exact sharedWidth?_le hshared hline hmargin

theorem forall₂_croppedBy_iff (h : List.Forall₂ (LosesWidth width) lines outs) :
    List.Forall₂ (CroppedBy width) lines outs ↔
      ∀ line ∈ lines, (∀ c ∈ line, isBlank c = true) → line.length ≤ width := by
  induction h with
  | nil => exact iff_of_true .nil nofun
  | cons hline _ ih => rw [List.forall₂_cons, hline.croppedBy_iff, ih, List.forall_mem_cons]

/-- Lines that are cropped by at most the width they share stay as many, and each loses its first
characters: one with text loses blanks, and one of blanks keeps what is behind them. So every line
of blanks becomes empty exactly if none is longer than the width. Without a width the lines stay as
they are. -/
theorem crop_of_le_sharedWidth?
    (hwidth : ∀ shared, sharedWidth? lines = some shared → width ≤ shared) :
    List.Forall₂ (LosesWidth width) lines (crop lines (some width)) ∧
    (List.Forall₂ (CroppedBy width) lines (crop lines (some width)) ↔
      ∀ line ∈ lines, (∀ c ∈ line, isBlank c = true) → line.length ≤ width) ∧
    crop lines none = lines := by
  have hcrop := forall₂_losesWidth_crop hwidth
  exact ⟨hcrop, forall₂_croppedBy_iff hcrop, rfl⟩

/-- A line of text between two lines of blanks, of which the second is longer than its margin. -/
def wideBlankLines : List Text := ["\u3000".toList, "\u3000\u2003a".toList, "\t \u00a0".toList]

theorem crop_of_le_sharedWidth?_wideBlankLines :
    (∀ shared, sharedWidth? wideBlankLines = some shared → 1 ≤ shared) ∧
      crop wideBlankLines (some 1) = [[], "\u2003a".toList, " \u00a0".toList] ∧
      List.Forall₂ (LosesWidth 1) wideBlankLines [[], "\u2003a".toList, " \u00a0".toList] ∧
      ¬ List.Forall₂ (CroppedBy 1) wideBlankLines [[], "\u2003a".toList, " \u00a0".toList] := by
  have hwidth : ∀ shared, sharedWidth? wideBlankLines = some shared → 1 ≤ shared := by
    have hshared : sharedWidth? wideBlankLines = some 2 := by decide
    intro shared h
    rw [hshared] at h
    exact Option.some.inj h ▸ Nat.le_succ 1
  have hlines : crop wideBlankLines (some 1) = [[], "\u2003a".toList, " \u00a0".toList] := by
    decide
  obtain ⟨hloses, hall, -⟩ := crop_of_le_sharedWidth? hwidth
  rw [hlines] at hloses hall
  refine ⟨hwidth, hlines, hloses, ?_⟩
  intro hcropped
  -- The search for an instance may come upon one that goes through all characters there are.
  have hblank : ∀ c ∈ "\t \u00a0".toList, isBlank c = true := List.all_eq_true.mp (by decide)
  have hshort := hall.mp hcropped "\t \u00a0".toList (by decide) hblank
  exact absurd hshort (by decide)

/-- A line of blanks longer than the width that is shared does not become empty. -/
theorem crop_leaves_blanks :
    sharedWidth? ["  a".toList, "      ".toList] = some 2 ∧
      (∀ c ∈ "      ".toList, isBlank c = true) ∧
      crop ["  a".toList, "      ".toList] (some 2) = [['a'], "    ".toList] := by
  refine ⟨?_, ?_, ?_⟩
  · decide
  · apply List.all_eq_true.mp
    decide
  · decide

end Partials.Margin
