import Mathlib.Data.List.Induction
import Mathlib.Data.List.TakeWhile
import Partials.Proofs.Text.Words

/-!
# Spaces and tabs at the ends of lines

`trimLines` takes them off line by line. `trimLineEnds` does the same in one walk over the
characters, which may start in the middle of a text; what becomes of a part of a text then depends
on the rest only through the question whether a line ends where the part does
(`trimLineEnds_append`).
-/

namespace Partials.Text

def isPad (c : Char) : Bool := c == ' ' || c == '\t'

/-- The text without the spaces and tabs at the ends of its lines. -/
def trimLines (t : Text) : Text := join ['\n'] ((split '\n' t).map (dropEndWhile isPad))

/-- Nothing but spaces and tabs stands before the end of the first line. Whether a line ends at the
end of the text is for `atEnd` to say. -/
def endsLine (atEnd : Bool) : Text → Bool
  | [] => atEnd
  | c :: cs => c == '\n' || (isPad c && endsLine atEnd cs)

/-- The text without the spaces and tabs before the ends of its lines. -/
def trimLineEnds (atEnd : Bool) : Text → Text
  | [] => []
  | c :: cs =>
    if (isPad c && endsLine atEnd cs) = true then trimLineEnds atEnd cs
    else c :: trimLineEnds atEnd cs

variable {atEnd : Bool} {c : Char} {s t : Text}

theorem isBlank_of_isPad (h : isPad c = true) : isBlank c = true := by
  rcases Bool.or_eq_true_iff.mp h with hc | hc
  · rw [beq_iff_eq.mp hc]
    rfl
  · rw [beq_iff_eq.mp hc]
    rfl

theorem not_isPad_of_not_isBlank (h : isBlank c = false) : isPad c = false := by
  by_contra hpad
  rw [Bool.not_eq_false] at hpad
  rw [isBlank_of_isPad hpad] at h
  cases h

theorem endsLine_append : endsLine atEnd (s ++ t) = endsLine (endsLine atEnd t) s := by
  induction s with
  | nil => rfl
  | cons d ds ih => rw [List.cons_append, endsLine, endsLine, ih]

theorem trimLineEnds_append :
    trimLineEnds atEnd (s ++ t) = trimLineEnds (endsLine atEnd t) s ++ trimLineEnds atEnd t := by
  induction s with
  | nil => rfl
  | cons d ds ih =>
      rw [List.cons_append, trimLineEnds, trimLineEnds, endsLine_append, ih]
      split
      · rfl
      · rfl

/-- Whether a character goes is told by the text up to a place that ends no line. -/
theorem trimLineEnds_cons_cases (c : Char) (s : Text) (ht : endsLine atEnd t = false) :
    (trimLineEnds atEnd (c :: (s ++ t)) = trimLineEnds atEnd (s ++ t) ∧
      trimLineEnds false (c :: s) = trimLineEnds false s) ∨
    (trimLineEnds atEnd (c :: (s ++ t)) = c :: trimLineEnds atEnd (s ++ t) ∧
      trimLineEnds false (c :: s) = c :: trimLineEnds false s) := by
  rw [trimLineEnds, trimLineEnds, endsLine_append, ht]
  split
  · exact .inl ⟨rfl, rfl⟩
  · exact .inr ⟨rfl, rfl⟩

theorem trimLineEnds_cons_of_not_isPad (hc : isPad c = false) :
    trimLineEnds atEnd (c :: t) = c :: trimLineEnds atEnd t := by
  rw [trimLineEnds, hc]
  rfl

theorem endsLine_cons_of_not_isBlank (hc : isBlank c = false) :
    endsLine atEnd (c :: t) = false := by
  have hnewline : (c == '\n') = false := by
    rw [beq_eq_false_iff_ne]
    rintro rfl
    cases hc
  rw [endsLine, hnewline, not_isPad_of_not_isBlank hc]
  rfl

/-- A character that is not blank parts the texts around it. -/
theorem trimLineEnds_append_cons (hc : isBlank c = false) :
    trimLineEnds atEnd (s ++ c :: t) = trimLineEnds false s ++ c :: trimLineEnds atEnd t := by
  rw [trimLineEnds_append, endsLine_cons_of_not_isBlank hc,
    trimLineEnds_cons_of_not_isPad (not_isPad_of_not_isBlank hc)]

theorem trimLineEnds_append_newline :
    trimLineEnds atEnd (s ++ '\n' :: t) = trimLineEnds true s ++ '\n' :: trimLineEnds atEnd t := by
  rw [trimLineEnds_append]
  rfl

theorem trimLineEnds_of_not_isPad (hs : ∀ c ∈ s, isPad c = false) : trimLineEnds atEnd s = s := by
  induction s with
  | nil => rfl
  | cons d ds ih =>
      rw [trimLineEnds_cons_of_not_isPad (hs d List.mem_cons_self),
        ih fun c hc => hs c (List.mem_cons_of_mem _ hc)]

theorem trimLineEnds_of_tight (hs : s.Tight) : trimLineEnds atEnd s = s :=
  trimLineEnds_of_not_isPad fun c hc => not_isPad_of_not_isBlank (hs c hc)

theorem trimLineEnds_tight_append (hs : s.Tight) :
    trimLineEnds atEnd (s ++ t) = s ++ trimLineEnds atEnd t := by
  rw [trimLineEnds_append, trimLineEnds_of_tight hs]

theorem trimLineEnds_sublist : (trimLineEnds atEnd t).Sublist t := by
  induction t with
  | nil => exact List.Sublist.refl _
  | cons d ds ih =>
      rw [trimLineEnds]
      split
      · exact ih.cons d
      · exact ih.cons_cons d

theorem mem_trimLineEnds (hc : isBlank c = false) (hmem : c ∈ t) : c ∈ trimLineEnds atEnd t := by
  obtain ⟨front, behind, rfl⟩ := List.append_of_mem hmem
  rw [trimLineEnds_append_cons hc]
  exact List.mem_append_right _ List.mem_cons_self

theorem newlines_trimLineEnds : newlines (trimLineEnds atEnd t) = newlines t := by
  induction t with
  | nil => rfl
  | cons d ds ih =>
      rw [trimLineEnds]
      split
      · next hpad =>
        have hne : d ≠ '\n' := by
          rintro rfl
          cases hpad
        rw [ih, newlines, newlines, List.count_cons_of_ne hne]
      · rw [newlines, newlines, List.count_cons, List.count_cons]
        exact congrArg (· + _) ih

/-- Where a line ends, nothing is left of it. -/
theorem trimLineEnds_of_endsLine (h : endsLine atEnd t = true) :
    trimLineEnds atEnd t = [] ∨ ∃ rest, trimLineEnds atEnd t = '\n' :: rest := by
  induction t with
  | nil => exact .inl rfl
  | cons d ds ih =>
      rcases Bool.or_eq_true_iff.mp h with hd | hd
      · rw [beq_iff_eq.mp hd]
        exact .inr ⟨trimLineEnds atEnd ds, rfl⟩
      · rw [trimLineEnds, if_pos hd]
        exact ih (Bool.and_eq_true_iff.mp hd).2

theorem endsLine_of_newline_not_mem (h : '\n' ∉ t) : endsLine false t = false := by
  induction t with
  | nil => rfl
  | cons d ds ih =>
      have hd : (d == '\n') = false := beq_eq_false_iff_ne.mpr (List.ne_of_not_mem_cons h).symm
      rw [endsLine, hd, ih (List.not_mem_of_not_mem_cons h), Bool.and_false]
      rfl

theorem trimLineEnds_of_newline_not_mem (h : '\n' ∉ t) : trimLineEnds false t = t := by
  induction t with
  | nil => rfl
  | cons d ds ih =>
      have hds : '\n' ∉ ds := List.not_mem_of_not_mem_cons h
      rw [trimLineEnds, endsLine_of_newline_not_mem hds, Bool.and_false, ih hds]
      rfl

theorem trimLineEnds_line (h : '\n' ∉ t) : trimLineEnds true t = dropEndWhile isPad t := by
  induction t using List.reverseRecOn with
  | nil => rfl
  | append_singleton s c ih =>
      rw [List.mem_append, List.mem_singleton, not_or] at h
      rw [trimLineEnds_append, dropEndWhile_concat]
      by_cases hc : isPad c = true
      · rw [if_pos hc, ← ih h.1]
        simp [endsLine, trimLineEnds, hc]
      · have hnewline : (c == '\n') = false := beq_eq_false_iff_ne.mpr (Ne.symm h.2)
        rw [if_neg hc]
        simp [endsLine, trimLineEnds, hc, hnewline, trimLineEnds_of_newline_not_mem h.1]

theorem trimLineEnds_join {lines : List Text} (h : ∀ line ∈ lines, '\n' ∉ line) :
    trimLineEnds true (join ['\n'] lines) = join ['\n'] (lines.map (dropEndWhile isPad)) := by
  fun_induction join ['\n'] lines with
  | case1 => rfl
  | case2 line => exact trimLineEnds_line (h line List.mem_cons_self)
  | case3 first next rest ih =>
      rw [List.append_assoc, List.singleton_append, trimLineEnds_append_newline,
        trimLineEnds_line (h first List.mem_cons_self),
        ih fun line hline => h line (List.mem_cons_of_mem _ hline), List.append_cons]
      rfl

theorem trimLines_eq (t : Text) : trimLines t = trimLineEnds true t := by
  conv_rhs => rw [← join_split '\n' t]
  exact (trimLineEnds_join fun line hline => not_mem_of_mem_split hline).symm

theorem trimStart_trimLineEnds :
    trimStart (trimLineEnds atEnd t) = trimLineEnds atEnd (trimStart t) := by
  induction t with
  | nil => rfl
  | cons d ds ih =>
      by_cases hd : isBlank d = true
      · have hstart : trimStart (d :: ds) = trimStart ds := List.dropWhile_cons_of_pos hd
        rw [hstart, ← ih, trimLineEnds]
        split
        · rfl
        · exact List.dropWhile_cons_of_pos hd
      · have hpad : isPad d = false := not_isPad_of_not_isBlank (Bool.not_eq_true _ ▸ hd)
        have hstart : trimStart (d :: ds) = d :: ds := List.dropWhile_cons_of_neg hd
        rw [hstart, trimLineEnds_cons_of_not_isPad hpad]
        exact List.dropWhile_cons_of_neg hd

theorem trimEnd_trimLineEnds (atEnd : Bool) (t : Text) :
    trimEnd (trimLineEnds atEnd t) = trimLineEnds false (trimEnd t) := by
  induction t using List.reverseRecOn generalizing atEnd with
  | nil => rfl
  | append_singleton s c ih =>
      by_cases hc : isBlank c = true
      · have hrest : ∀ d ∈ trimLineEnds atEnd [c], isBlank d = true := by
          intro d hd
          rw [List.mem_singleton.mp (trimLineEnds_sublist.subset hd)]
          exact hc
        have hend : trimEnd (s ++ [c]) = trimEnd s := (dropEndWhile_concat _ _ _).trans (if_pos hc)
        rw [trimLineEnds_append, trimEnd_append_blanks _ hrest, ih, hend]
      · have hkept : ∀ s : Text, trimEnd (s ++ [c]) = s ++ [c] := fun s =>
          (dropEndWhile_concat _ _ _).trans (if_neg hc)
        rw [trimLineEnds_append_cons (Bool.not_eq_true _ ▸ hc), hkept,
          trimLineEnds_append_cons (Bool.not_eq_true _ ▸ hc)]
        exact hkept _

/-- A word ends at the blanks before the end of a line or at the end itself. -/
theorem words_trimLineEnds : words (trimLineEnds atEnd t) = words t := by
  -- A word may go on across the place of the induction, so what stands in front is kept.
  suffices h : ∀ s : Text, words (s ++ trimLineEnds atEnd t) = words (s ++ t) from h []
  induction t with
  | nil => exact fun s => rfl
  | cons d ds ih =>
      intro s
      rw [trimLineEnds]
      split
      · next hd =>
        obtain ⟨hpad, hends⟩ := Bool.and_eq_true_iff.mp hd
        have hblank : isBlank d = true := isBlank_of_isPad hpad
        have hds : words (trimLineEnds atEnd ds) = words ds := ih []
        rw [words_append_cons hblank, ← hds]
        rcases trimLineEnds_of_endsLine hends with hnil | ⟨rest, hrest⟩
        · rw [hnil, List.append_nil]
          exact (List.append_nil _).symm
        · rw [hrest, words_append_cons isBlank_newline, words_cons isBlank_newline]
      · have hshift := ih (s ++ [d])
        rwa [List.append_assoc, List.append_assoc] at hshift

/-- Lines that lose all blanks at their ends can lose the spaces and tabs first. -/
theorem map_trimEnd_split_trimLineEnds (atEnd : Bool) (t : Text) :
    (split '\n' (trimLineEnds atEnd t)).map trimEnd = (split '\n' t).map trimEnd := by
  suffices h : ∀ lines : List Text, lines ≠ [] → (∀ line ∈ lines, '\n' ∉ line) →
      (split '\n' (trimLineEnds atEnd (join ['\n'] lines))).map trimEnd = lines.map trimEnd by
    have hlines := h (split '\n' t) (splitWhere_ne_nil _ t) fun line hline =>
      not_mem_of_mem_split hline
    rwa [join_split] at hlines
  have hline : ∀ {atEnd : Bool} {line : Text}, '\n' ∉ line →
      (split '\n' (trimLineEnds atEnd line)).map trimEnd = [trimEnd line] := by
    intro atEnd line hline
    have hnone : '\n' ∉ trimEnd line := fun hmem => hline (mem_of_mem_trimEnd hmem)
    rw [split_of_not_mem fun hmem => hline (trimLineEnds_sublist.subset hmem), List.map_singleton,
      trimEnd_trimLineEnds, trimLineEnds_of_newline_not_mem hnone]
  intro lines hne h
  fun_induction join ['\n'] lines with
  | case1 => exact absurd rfl hne
  | case2 line => exact hline (h line List.mem_cons_self)
  | case3 first next rest ih =>
      rw [List.append_assoc, List.singleton_append, trimLineEnds_append_newline, split_append_cons,
        List.map_append, hline (h first List.mem_cons_self),
        ih (List.cons_ne_nil _ _) fun line hmem => h line (List.mem_cons_of_mem _ hmem)]
      rfl

/-- The lines before the first text of `t` that hold no more than spaces and tabs, counted from the
first one that holds any. -/
def paddedLines (t : Text) : Nat :=
  if t.all isBlank then 0
  else newlines ((t.dropWhile (· == '\n')).takeWhile fun c => c == '\n' || isPad c)

theorem newline_not_mem_of_endsLine (hs : ∀ c ∈ s, (c == '\n' || isPad c) = true)
    (hends : endsLine false s = false) : '\n' ∉ s := by
  induction s with
  | nil => nofun
  | cons d ds ih =>
      obtain ⟨hd, hds⟩ := Bool.or_eq_false_iff.mp hends
      have hpad : isPad d = true := (Bool.or_eq_true_iff.mp (hs d List.mem_cons_self)).resolve_left
        (ne_true_of_eq_false hd)
      rw [hpad, Bool.true_and] at hds
      exact List.not_mem_cons_of_ne_of_not_mem (Ne.symm (beq_eq_false_iff_ne.mp hd))
        (ih (fun c hc => hs c (List.mem_cons_of_mem _ hc)) hds)

/-- Of lines of spaces and tabs only their ends are left, and the start of the line behind them. -/
theorem trimLineEnds_padding (hs : ∀ c ∈ s, (c == '\n' || isPad c) = true) :
    ∃ pads : Text, '\n' ∉ pads ∧
      trimLineEnds false s = List.replicate (newlines s) '\n' ++ pads := by
  induction s with
  | nil => exact ⟨[], nofun, rfl⟩
  | cons d ds ih =>
      have hds : ∀ c ∈ ds, (c == '\n' || isPad c) = true := fun c hc =>
        hs c (List.mem_cons_of_mem _ hc)
      obtain ⟨pads, hpads, htrim⟩ := ih hds
      by_cases hd : d = '\n'
      · refine ⟨pads, hpads, ?_⟩
        rw [hd, trimLineEnds_cons_of_not_isPad rfl, htrim, newlines, newlines,
          List.count_cons_self, List.replicate_succ, List.cons_append]
      · have hcount : newlines (d :: ds) = newlines ds := List.count_cons_of_ne hd
        rw [trimLineEnds, hcount]
        split
        · exact ⟨pads, hpads, htrim⟩
        · next hkept =>
          have hpad : isPad d = true := (Bool.or_eq_true_iff.mp (hs d List.mem_cons_self)).resolve_left
            fun heq => hd (beq_iff_eq.mp heq)
          rw [hpad, Bool.true_and, Bool.not_eq_true] at hkept
          have hnone : '\n' ∉ ds := newline_not_mem_of_endsLine hds hkept
          refine ⟨d :: ds, List.not_mem_cons_of_ne_of_not_mem (Ne.symm hd) hnone, ?_⟩
          rw [newlines, List.count_eq_zero.mpr hnone, trimLineEnds_of_newline_not_mem hnone]
          rfl

/-- The start of a text: line feeds, then spaces, tabs and line feeds up to the first other
character. -/
structure Lead (t feeds padding : Text) (c : Char) (behind : Text) : Prop where
  text_eq : t = feeds ++ (padding ++ c :: behind)
  feeds_eq : ∀ d ∈ feeds, (d == '\n') = true
  dropWhile_eq : t.dropWhile (· == '\n') = padding ++ c :: behind
  padding_eq : ∀ d ∈ padding, (d == '\n' || isPad d) = true
  not_newline : (c == '\n') = false
  not_pad : isPad c = false
  paddedLines_eq : paddedLines t = newlines padding
  solid : ∃ d ∈ c :: behind, isBlank d = false

theorem exists_lead (ht : t.all isBlank = false) :
    ∃ feeds padding c behind, Lead t feeds padding c behind := by
  obtain ⟨sign, hsign, hsolid⟩ : ∃ c ∈ t, isBlank c = false := by
    simpa using List.all_eq_false.mp ht
  have hfeed : (sign == '\n') = false := by
    rw [beq_eq_false_iff_ne]
    rintro rfl
    cases hsolid
  have hrun : (sign == '\n' || isPad sign) = false := by
    rw [hfeed, not_isPad_of_not_isBlank hsolid]
    rfl
  obtain ⟨feeds, first, after, htext, hfeeds, -, -, hinner⟩ :=
    exists_eq_append_cons (t := t) (· == '\n') ⟨sign, hsign, hfeed⟩
  have hafter : sign ∈ first :: after := by
    rw [htext] at hsign
    refine (List.mem_append.mp hsign).resolve_left fun hmem => ?_
    rw [hfeeds sign hmem] at hfeed
    cases hfeed
  obtain ⟨padding, c, behind, hcut, hpadding, hc, htake, -⟩ :=
    exists_eq_append_cons (fun c => c == '\n' || isPad c) ⟨sign, hafter, hrun⟩
  obtain ⟨hnewline, hpad⟩ := Bool.or_eq_false_iff.mp hc
  refine ⟨feeds, padding, c, behind, by rw [htext, hcut], hfeeds, by rw [hinner, hcut], hpadding,
    hnewline, hpad, ?_, sign, ?_, hsolid⟩
  · rw [paddedLines, ht, hinner, htake]
    rfl
  · rw [hcut] at hafter
    refine (List.mem_append.mp hafter).resolve_left fun hmem => ?_
    rw [hpadding sign hmem] at hrun
    cases hrun

theorem dropWhile_newline_append {pads : Text} (hpads : '\n' ∉ pads) {c : Char}
    (hc : (c == '\n') = false) (rest : Text) :
    (pads ++ c :: rest).dropWhile (· == '\n') = pads ++ c :: rest := by
  cases pads with
  | nil =>
      rw [List.nil_append, List.dropWhile_cons, hc]
      rfl
  | cons d ds =>
      have hd : (d == '\n') = false := by
        rw [beq_eq_false_iff_ne]
        exact (List.ne_of_not_mem_cons hpads).symm
      rw [List.cons_append, List.dropWhile_cons, hd]
      rfl

/-- Where the line feeds at the start of a text are dropped, the ends of its lines of spaces and
tabs stay, unless these lines were trimmed before. -/
theorem dropWhile_trimLineEnds (ht : t.all isBlank = false) (atEnd : Bool) :
    ∃ rest : Text, (∃ c ∈ rest, isBlank c = false) ∧
      trimLineEnds atEnd (t.dropWhile (· == '\n')) =
        List.replicate (paddedLines t) '\n' ++ rest ∧
      (trimLineEnds atEnd t).dropWhile (· == '\n') = rest := by
  obtain ⟨feeds, padding, c, behind, hlead⟩ := exists_lead ht
  obtain ⟨pads, hpads, htrim⟩ := trimLineEnds_padding hlead.padding_eq
  have hends : endsLine atEnd (c :: behind) = false := by
    rw [endsLine, hlead.not_newline, hlead.not_pad]
    rfl
  have htrimmed : trimLineEnds atEnd (padding ++ c :: behind) =
      List.replicate (newlines padding) '\n' ++ (pads ++ trimLineEnds atEnd (c :: behind)) := by
    rw [trimLineEnds_append, hends, htrim, List.append_assoc]
  refine ⟨pads ++ trimLineEnds atEnd (c :: behind), ?_, ?_, ?_⟩
  · obtain ⟨sign, hsign, hsolid⟩ := hlead.solid
    exact ⟨sign, List.mem_append_right _ (mem_trimLineEnds hsolid hsign), hsolid⟩
  · rw [hlead.dropWhile_eq, hlead.paddedLines_eq, htrimmed]
  · have hkept : ∀ d ∈ feeds, isPad d = false := by
      intro d hd
      rw [beq_iff_eq.mp (hlead.feeds_eq d hd)]
      rfl
    rw [hlead.text_eq, trimLineEnds_append, trimLineEnds_of_not_isPad hkept, htrimmed,
      List.dropWhile_append_of_pos hlead.feeds_eq, List.dropWhile_append_of_pos,
      trimLineEnds_cons_of_not_isPad hlead.not_pad,
      dropWhile_newline_append hpads hlead.not_newline]
    intro d hd
    rw [(List.mem_replicate.mp hd).2]
    rfl

end Partials.Text
