import Mathlib.Data.List.Induction
import Mathlib.Data.List.TakeWhile
import Partials.Text

/-!
# Blanks at the ends of a text

Trimming takes blanks off the ends and touches nothing else: around a solid text it takes off
exactly the blanks that were put there.
-/

namespace Partials.Text

/-- The text starts and ends with a character that is not blank. -/
structure Solid (t : Text) : Prop where
  head : ∃ c cs, t = c :: cs ∧ isBlank c = false
  last : ∃ cs c, t = cs ++ [c] ∧ isBlank c = false

theorem dropEndWhile_isPrefix (p : Char → Bool) (t : Text) : dropEndWhile p t <+: t := by
  unfold dropEndWhile
  rw [← List.reverse_suffix, List.reverse_reverse]
  exact List.dropWhile_suffix p

/-- What stands before a character that stays, stays. -/
theorem dropEndWhile_append {p : Char → Bool} {s : Text} {c : Char} (hp : p c = false) (t : Text) :
    dropEndWhile p (s ++ [c] ++ t) = s ++ [c] ++ dropEndWhile p t := by
  unfold dropEndWhile
  rw [List.reverse_append, List.dropWhile_append]
  split
  · next hempty =>
    rw [List.isEmpty_iff.mp hempty]
    simp [hp]
  · simp

theorem dropEndWhile_concat (p : Char → Bool) (s : Text) (c : Char) :
    dropEndWhile p (s ++ [c]) = if p c = true then dropEndWhile p s else s ++ [c] := by
  unfold dropEndWhile
  rw [List.reverse_concat, List.dropWhile_cons]
  split
  · rfl
  · rw [List.reverse_cons, List.reverse_reverse]

theorem trim_isInfix (t : Text) : trim t <:+: t :=
  (dropEndWhile_isPrefix _ _).isInfix.trans (List.dropWhile_suffix _).isInfix

theorem mem_of_mem_trimEnd {t : Text} {c : Char} (h : c ∈ trimEnd t) : c ∈ t :=
  (dropEndWhile_isPrefix isBlank t).subset h

theorem mem_of_mem_trimStart {t : Text} {c : Char} (h : c ∈ trimStart t) : c ∈ t :=
  List.dropWhile_subset isBlank h

theorem mem_of_mem_lead {t : Text} {c : Char} (h : c ∈ lead t) : c ∈ t :=
  List.takeWhile_subset isBlank h

theorem exists_dropEndWhile_append (p : Char → Bool) (t : Text) :
    ∃ tail : Text, (∀ c ∈ tail, p c = true) ∧ t = dropEndWhile p t ++ tail := by
  refine ⟨(t.reverse.takeWhile p).reverse, ?_, ?_⟩
  · intro c hc
    exact List.all_eq_true.mp List.all_takeWhile c (List.mem_reverse.mp hc)
  · unfold dropEndWhile
    rw [← List.reverse_append, List.takeWhile_append_dropWhile, List.reverse_reverse]

/-- What is taken off the end is blank. -/
theorem exists_trimEnd_append (t : Text) :
    ∃ blanks : Text, (∀ c ∈ blanks, isBlank c = true) ∧ t = trimEnd t ++ blanks :=
  exists_dropEndWhile_append isBlank t

variable {blanks t : Text}

theorem Solid.trimStart_eq (ht : t.Solid) : trimStart t = t := by
  obtain ⟨c, cs, rfl, hc⟩ := ht.head
  rw [trimStart, List.dropWhile_cons, hc]
  rfl

theorem trimStart_append (hblanks : ∀ c ∈ blanks, isBlank c = true) (ht : trimStart t = t) :
    trimStart (blanks ++ t) = t := by
  rw [trimStart, List.dropWhile_append_of_pos hblanks]
  exact ht

theorem lead_append (hblanks : ∀ c ∈ blanks, isBlank c = true) (ht : t.Solid) :
    lead (blanks ++ t) = blanks := by
  obtain ⟨c, cs, rfl, hc⟩ := ht.head
  rw [lead, List.takeWhile_append_of_pos hblanks, List.takeWhile_cons, hc]
  exact List.append_nil blanks

theorem trimEnd_append_blanks (t : Text) (hblanks : ∀ c ∈ blanks, isBlank c = true) :
    trimEnd (t ++ blanks) = trimEnd t := by
  unfold trimEnd dropEndWhile
  rw [List.reverse_append, List.dropWhile_append_of_pos]
  intro c hc
  exact hblanks c (List.mem_reverse.mp hc)

theorem trimEnd_blanks (hblanks : ∀ c ∈ blanks, isBlank c = true) : trimEnd blanks = [] :=
  trimEnd_append_blanks [] hblanks

theorem trimEnd_append_solid (s : Text) (ht : t.Solid) : trimEnd (s ++ t) = s ++ t := by
  obtain ⟨cs, c, rfl, hc⟩ := ht.last
  have hkept := dropEndWhile_append (s := s ++ cs) hc []
  rw [List.append_nil, List.append_assoc] at hkept
  exact hkept.trans (List.append_nil _)

/-- What stands before a text that is not blank, stays. -/
theorem trimEnd_append_of_exists (s : Text) (ht : ∃ c ∈ t, isBlank c = false) :
    trimEnd (s ++ t) = s ++ trimEnd t := by
  obtain ⟨c, hmem, hc⟩ := ht
  obtain ⟨front, behind, rfl⟩ := List.append_of_mem hmem
  unfold trimEnd
  rw [List.append_cons, dropEndWhile_append hc, ← List.append_assoc, ← List.append_assoc s,
    dropEndWhile_append hc]
  simp only [List.append_assoc]

/-- No blank stands at the end of the text. -/
def Trimmed (t : Text) : Prop := ∀ c, t.getLast? = some c → isBlank c = false

theorem trimmed_nil : Trimmed [] := by
  intro c hc
  cases hc

theorem Solid.trimmed (ht : t.Solid) : t.Trimmed := by
  obtain ⟨cs, c, rfl, hc⟩ := ht.last
  intro d hd
  rw [List.getLast?_concat] at hd
  exact Option.some.inj hd ▸ hc

theorem Trimmed.append (ht : t.Trimmed) (hne : t ≠ []) (s : Text) : (s ++ t).Trimmed := by
  intro c hc
  cases hlast : t.getLast? with
  | none => exact absurd (List.getLast?_eq_none_iff.mp hlast) hne
  | some d =>
      rw [List.getLast?_append, hlast] at hc
      exact Option.some.inj hc ▸ ht d hlast

theorem Trimmed.of_append {s : Text} (h : (s ++ t).Trimmed) : t.Trimmed := by
  intro c hc
  apply h
  rw [List.getLast?_append, hc]
  rfl

theorem Trimmed.eq_nil (ht : t.Trimmed) (hblank : ∀ c ∈ t, isBlank c = true) : t = [] := by
  cases hlast : t.getLast? with
  | none => exact List.getLast?_eq_none_iff.mp hlast
  | some c =>
      have hc := ht c hlast
      rw [hblank c (List.mem_of_getLast? hlast)] at hc
      cases hc

theorem trimmed_trimEnd (t : Text) : (trimEnd t).Trimmed := by
  induction t using List.reverseRecOn with
  | nil => exact trimmed_nil
  | append_singleton s c ih =>
      unfold trimEnd at ih ⊢
      rw [dropEndWhile_concat]
      split
      · exact ih
      · next hc =>
        intro d hd
        rw [List.getLast?_concat] at hd
        rw [← Option.some.inj hd]
        exact Bool.not_eq_true _ ▸ hc

theorem Trimmed.trimEnd_eq (ht : t.Trimmed) : trimEnd t = t := by
  obtain ⟨blanks, hblanks, hsplit⟩ := exists_trimEnd_append t
  have hrest : blanks.Trimmed := Trimmed.of_append (hsplit ▸ ht)
  rw [hrest.eq_nil hblanks, List.append_nil] at hsplit
  exact hsplit.symm

theorem Trimmed.solid {c : Char} {cs : Text} (ht : Trimmed (c :: cs)) (hc : isBlank c = false) :
    Solid (c :: cs) := by
  have hne : c :: cs ≠ [] := List.cons_ne_nil c cs
  refine ⟨⟨c, cs, rfl, hc⟩, _, _, (List.dropLast_concat_getLast hne).symm, ?_⟩
  exact ht _ (List.getLast?_eq_some_getLast hne)

/-- A text is cut before the first character that fails a test. -/
theorem exists_eq_append_cons (p : Char → Bool) (h : ∃ c ∈ t, p c = false) :
    ∃ front c behind, t = front ++ c :: behind ∧ (∀ d ∈ front, p d = true) ∧ p c = false ∧
      t.takeWhile p = front ∧ t.dropWhile p = c :: behind := by
  have hne : t.dropWhile p ≠ [] := by
    intro hnil
    obtain ⟨c, hc, hfails⟩ := h
    rw [List.dropWhile_eq_nil_iff.mp hnil c hc] at hfails
    cases hfails
  refine ⟨t.takeWhile p, (t.dropWhile p).head hne, (t.dropWhile p).tail, ?_,
    List.all_eq_true.mp List.all_takeWhile, List.head_dropWhile_not p hne, rfl, ?_⟩
  · rw [List.cons_head_tail, List.takeWhile_append_dropWhile]
  · rw [List.cons_head_tail]

/-- A text is blank, or it is a solid text between blanks. -/
theorem blank_or_solid (t : Text) :
    (∀ c ∈ t, isBlank c = true) ∨
      ∃ lead body trail : Text, t = lead ++ body ++ trail ∧ (∀ c ∈ lead, isBlank c = true) ∧
        body.Solid ∧ ∀ c ∈ trail, isBlank c = true := by
  by_cases hsign : ∃ c ∈ t, isBlank c = false
  · obtain ⟨lead, c, cs, rfl, hlead, hc, -⟩ := exists_eq_append_cons isBlank hsign
    obtain ⟨trail, htrail, hsplit⟩ := exists_trimEnd_append (c :: cs)
    have hbody : trimEnd (c :: cs) = c :: trimEnd cs := dropEndWhile_append (s := []) hc cs
    have htrimmed : Trimmed (c :: trimEnd cs) := hbody ▸ trimmed_trimEnd (c :: cs)
    refine .inr ⟨lead, c :: trimEnd cs, trail, ?_, hlead, htrimmed.solid hc, htrail⟩
    rw [List.append_assoc, ← hbody, ← hsplit]
  · refine .inl fun c hmem => ?_
    by_contra hc
    exact hsign ⟨c, hmem, Bool.not_eq_true _ ▸ hc⟩

variable {pat s : Text}

theorem infix_of_infix_append_left (hpat : ∃ c cs, pat = c :: cs ∧ c ∉ s) (h : pat <:+: s ++ t) :
    pat <:+: t := by
  obtain ⟨c, cs, rfl, hc⟩ := hpat
  induction s with
  | nil => exact h
  | cons d ds ih =>
      rw [List.mem_cons, not_or] at hc
      rcases List.infix_cons_iff.mp h with hstarts | h
      · exact absurd (List.cons_prefix_cons.mp hstarts).1 hc.1
      · exact ih hc.2 h

theorem infix_of_infix_append_right (hpat : ∃ cs c, pat = cs ++ [c] ∧ c ∉ t)
    (h : pat <:+: s ++ t) : pat <:+: s := by
  obtain ⟨cs, c, rfl, hc⟩ := hpat
  rw [← List.reverse_infix, List.reverse_append, List.reverse_singleton,
    List.singleton_append] at h ⊢
  rw [List.reverse_append] at h
  exact infix_of_infix_append_left ⟨c, cs.reverse, rfl, mt List.mem_reverse.mp hc⟩ h

/-- Blanks around a text hold no part of a solid one. -/
theorem Solid.isInfix_of_isInfix {blanks' : Text} (hpat : pat.Solid)
    (hblanks : ∀ c ∈ blanks, isBlank c = true) (hblanks' : ∀ c ∈ blanks', isBlank c = true)
    (h : pat <:+: blanks ++ t ++ blanks') : pat <:+: t := by
  have hnot : ∀ {s : Text} {c : Char}, (∀ d ∈ s, isBlank d = true) → isBlank c = false → c ∉ s := by
    intro s c hs hc hmem
    rw [hs c hmem] at hc
    cases hc
  obtain ⟨c, cs, heq, hc⟩ := hpat.head
  obtain ⟨ds, d, heq', hd⟩ := hpat.last
  have hright := infix_of_infix_append_right ⟨ds, d, heq', hnot hblanks' hd⟩ h
  exact infix_of_infix_append_left ⟨c, cs, heq, hnot hblanks hc⟩ hright

end Partials.Text
