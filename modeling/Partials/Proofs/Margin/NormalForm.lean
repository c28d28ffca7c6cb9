import Partials.Proofs.Margin.Cropping

/-!
# Normalized lines

Lines that are normal stay as they are when they are normalized (`IsNormal.normalizeLines_join`),
and normalizing gives normal lines, unless the indentation brings in tabs or line feeds of its own.
So normalizing twice is normalizing once: `normalizeLines_idempotent`.
-/

namespace Partials.Margin

/-- Lines on which normalizing has nothing to do. -/
structure IsNormal (indent : Text) (lines : List Text) : Prop where
  ne_nil : lines ≠ []
  newline : ∀ line ∈ lines, '\n' ∉ line
  trimmed : ∀ line ∈ lines, line.Trimmed
  expanded : ∀ line ∈ lines, expandTabs indent line = line
  flush : (∀ line ∈ lines, line = []) ∨ ∃ line ∈ lines, IsFlush line

theorem IsNormal.normalizeLines_join {indent : Text} {lines : List Text}
    (h : IsNormal indent lines) : normalizeLines indent (Text.join ['\n'] lines) = lines := by
  have hexpanded : expandedLines indent (Text.join ['\n'] lines) = lines := by
    unfold expandedLines
    rw [Text.split_join h.ne_nil h.newline]
    refine (List.map_congr_left fun line hline => ?_).trans (List.map_id lines)
    rw [(h.trimmed line hline).trimEnd_eq]
    exact h.expanded line hline
  rw [normalizeLines_eq_crop, hexpanded]
  exact crop_of_flush h.flush

theorem replaceChar_eq_self {c : Char} {new t : Text} (h : c ∈ t → new = [c]) :
    Text.replaceChar c new t = t := by
  induction t with
  | nil => rfl
  | cons d ds ih =>
      change (if d = c then new else [d]) ++ Text.replaceChar c new ds = d :: ds
      rw [ih fun hmem => h (List.mem_cons_of_mem d hmem)]
      split
      · next hd =>
        rw [h (hd ▸ List.mem_cons_self), hd]
        rfl
      · rfl

theorem expandTabs_eq_self {indent line : Text} (h : '\t' ∈ Text.lead line → indent = ['\t']) :
    expandTabs indent line = line := by
  rw [expandTabs, replaceChar_eq_self h]
  exact Text.lead_append_trimStart line

theorem not_mem_replaceChar {c : Char} {new : Text} (h : c ∉ new) (t : Text) :
    c ∉ Text.replaceChar c new t := by
  intro hmem
  obtain ⟨d, -, hc⟩ := List.mem_flatMap.mp hmem
  split at hc
  · exact h hc
  · next hd => exact hd (List.mem_singleton.mp hc).symm

theorem lead_append_cons_isPrefix (s : Text) {c : Char} (hc : isBlank c = false) (t : Text) :
    Text.lead (s ++ c :: t) <+: s := by
  have hnil : (c :: t).takeWhile isBlank = [] := by simp [hc]
  unfold Text.lead
  rw [List.takeWhile_append, hnil, List.append_nil]
  split
  · exact List.prefix_refl s
  · exact List.takeWhile_prefix isBlank

/-- Expanding leaves no tab in the margin that the indentation does not bring in. -/
theorem Expands.tab_not_mem_lead {indent line out : Text} (h : Expands indent line out)
    (htab : '\t' ∉ indent) : '\t' ∉ Text.lead out := by
  cases h with
  | blank _ => exact List.not_mem_nil
  | text _ hbody _ =>
      obtain ⟨c, cs, rfl, hc⟩ := hbody.head
      intro hmem
      exact not_mem_replaceChar htab _ ((lead_append_cons_isPrefix _ hc cs).subset hmem)

theorem CroppedBy.lead_subset {width : Nat} {line out : Text} (h : CroppedBy width line out) :
    Text.lead out ⊆ Text.lead line := by
  cases h with
  | blank _ => exact List.nil_subset _
  | text hmargin _ _ =>
      unfold Text.lead
      rw [List.takeWhile_append_of_pos hmargin]
      exact List.subset_append_right _ _

/-- Unless tabs stand for themselves, none is left in the margin of a normalized line. -/
theorem tab_not_mem_lead_of_mem_normalizeLines {indent content out : Text} (htab : '\t' ∉ indent)
    (hout : out ∈ normalizeLines indent content) : '\t' ∉ Text.lead out := by
  have htrimmed : ∀ line ∈ expandedLines indent content, line.Trimmed :=
    trimmed_of_mem_expandedLines
  obtain ⟨width, hcropped⟩ := exists_forall₂_croppedBy htrimmed
  obtain ⟨line, hline, hcrop⟩ := exists_of_mem_of_forall₂ hcropped hout
  obtain ⟨source, -, hexpands⟩ := exists_of_mem_of_forall₂ (forall₂_expands indent content) hline
  intro hmem
  exact hexpands.tab_not_mem_lead htab (hcrop.lead_subset hmem)

theorem empty_or_isFlush_of_normalizeLines (indent content : Text) :
    (∀ out ∈ normalizeLines indent content, out = []) ∨
      ∃ out ∈ normalizeLines indent content, IsFlush out := by
  refine (isBlank_or_isFlush_of_crop (expandedLines indent content)).imp_left fun hblank => ?_
  intro out hout
  apply (trimmed_of_mem_normalizeLines out hout).eq_nil
  obtain ⟨line, hline, hsub⟩ := exists_of_mem_crop hout
  exact fun c hc => hblank line hline c (hsub c hc)

theorem isNormal_normalizeLines {indent : Text} (hnewline : '\n' ∉ indent)
    (htab : '\t' ∉ indent ∨ indent = ['\t']) (content : Text) :
    IsNormal indent (normalizeLines indent content) where
  ne_nil := normalizeLines_ne_nil indent content
  newline := fun _ hline => newline_not_mem_of_mem_normalizeLines hnewline hline
  trimmed := trimmed_of_mem_normalizeLines
  expanded := by
    intro line hline
    apply expandTabs_eq_self
    intro hmem
    exact htab.resolve_left fun hnot => tab_not_mem_lead_of_mem_normalizeLines hnot hline hmem
  flush := empty_or_isFlush_of_normalizeLines indent content

/-- Normalizing the normalized lines again changes nothing, where the indentation holds neither a
tab nor a line feed or is a single tab. -/
theorem normalizeLines_idempotent {indent : Text}
    (hindent : ('\t' ∉ indent ∧ '\n' ∉ indent) ∨ indent = ['\t']) (content : Text) :
    normalizeLines indent (Text.join ['\n'] (normalizeLines indent content)) =
      normalizeLines indent content := by
  apply IsNormal.normalizeLines_join
  rcases hindent with ⟨htab, hnewline⟩ | rfl
  · exact isNormal_normalizeLines hnewline (.inl htab) content
  · exact isNormal_normalizeLines (by decide) (.inr rfl) content

/-- An indentation that is blank only in part, and a line with text behind three tabs. -/
theorem normalizeLines_idempotent_partlyBlank :
    ('\t' ∉ " _".toList ∧ '\n' ∉ " _".toList) ∧
      normalizeLines " _".toList "\t\t\tx \n\n\t y".toList =
        ["_ _ _x".toList, [], "_ y".toList] ∧
      normalizeLines " _".toList (Text.join ['\n'] ["_ _ _x".toList, [], "_ y".toList]) =
        ["_ _ _x".toList, [], "_ y".toList] := by
  have hindent : '\t' ∉ " _".toList ∧ '\n' ∉ " _".toList := by decide
  have hlines : normalizeLines " _".toList "\t\t\tx \n\n\t y".toList =
      ["_ _ _x".toList, [], "_ y".toList] := by decide
  have hagain := normalizeLines_idempotent (.inl hindent) "\t\t\tx \n\n\t y".toList
  rw [hlines] at hagain
  exact ⟨hindent, hlines, hagain⟩

end Partials.Margin
