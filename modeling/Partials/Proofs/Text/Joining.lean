import Mathlib.Data.List.Basic
import Partials.Text

/-!
# Pieces and their join

Splitting a text at a character and joining pieces with it undo each other (`split_join`), and a
join of two lists is the join of their joins. It starts and ends with a piece.
-/

namespace Partials.Text

/-- Splitting at a character that stands between two texts splits each of them. -/
theorem splitWhere_append_cons {p : Char → Bool} {c : Char} (hc : p c = true) (s t : Text) :
    splitWhere p (s ++ c :: t) = splitWhere p s ++ splitWhere p t := by
  induction s with
  | nil => simp [splitWhere, hc]
  | cons d ds ih =>
      obtain ⟨piece, pieces, hpieces⟩ := List.exists_cons_of_ne_nil (splitWhere_ne_nil p ds)
      rw [List.cons_append, splitWhere, splitWhere, ih, hpieces]
      split <;> simp

theorem length_split (sep : Char) (t : Text) : (split sep t).length = t.count sep + 1 := by
  unfold split List.count
  induction t with
  | nil => rfl
  | cons c cs ih =>
      obtain ⟨piece, pieces, hpieces⟩ := List.exists_cons_of_ne_nil (splitWhere_ne_nil (· == sep) cs)
      rw [splitWhere, List.countP_cons]
      split
      · rw [List.length_cons, ih]
      · rw [hpieces] at ih ⊢
        exact ih

theorem split_append_cons (sep : Char) (s t : Text) :
    split sep (s ++ sep :: t) = split sep s ++ split sep t :=
  splitWhere_append_cons (by simp) s t

theorem splitWhere_of_forall {p : Char → Bool} {t : Text} (h : ∀ c ∈ t, p c = false) :
    splitWhere p t = [t] := by
  induction t with
  | nil => rfl
  | cons c cs ih =>
      have hc : p c = false := h c List.mem_cons_self
      rw [splitWhere, ih fun d hd => h d (List.mem_cons_of_mem _ hd), hc]
      rfl

theorem split_of_not_mem {sep : Char} {t : Text} (h : sep ∉ t) : split sep t = [t] := by
  apply splitWhere_of_forall
  intro c hc
  rw [beq_eq_false_iff_ne]
  rintro rfl
  exact h hc

theorem split_replicate_append (sep : Char) (n : Nat) (t : Text) :
    split sep (List.replicate n sep ++ t) = List.replicate n [] ++ split sep t := by
  induction n with
  | zero => rfl
  | succ n ih =>
      rw [List.replicate_succ, List.cons_append, List.replicate_succ, List.cons_append, ← ih]
      exact split_append_cons sep [] _

theorem isInfix_of_mem_splitWhere {p : Char → Bool} {t piece : Text}
    (h : piece ∈ splitWhere p t) : piece <:+: t := by
  -- The first piece is more: what comes before it is no part of the text.
  suffices hfirst : ∀ q qs, splitWhere p t = q :: qs → q <+: t ∧ ∀ piece ∈ qs, piece <:+: t by
    obtain ⟨q, qs, hpieces⟩ := List.exists_cons_of_ne_nil (splitWhere_ne_nil p t)
    obtain ⟨hq, hqs⟩ := hfirst q qs hpieces
    rw [hpieces] at h
    rcases List.mem_cons.mp h with rfl | h
    · exact hq.isInfix
    · exact hqs piece h
  clear h
  induction t with
  | nil =>
      rintro q qs ⟨⟩
      exact ⟨List.prefix_refl _, by simp⟩
  | cons c cs ih =>
      intro q qs hpieces
      obtain ⟨r, rs, hrest⟩ := List.exists_cons_of_ne_nil (splitWhere_ne_nil p cs)
      obtain ⟨hr, hrs⟩ := ih r rs hrest
      have hlater : ∀ {piece : Text}, piece <:+: cs → piece <:+: c :: cs := fun hpiece =>
        hpiece.trans (List.suffix_cons c cs).isInfix
      rw [splitWhere, hrest] at hpieces
      split at hpieces
      · obtain ⟨rfl, rfl⟩ := List.cons.inj hpieces
        refine ⟨List.nil_prefix, fun piece hpiece => hlater ?_⟩
        rcases List.mem_cons.mp hpiece with rfl | hpiece
        · exact hr.isInfix
        · exact hrs piece hpiece
      · obtain ⟨rfl, rfl⟩ := List.cons.inj hpieces
        exact ⟨List.cons_prefix_cons.mpr ⟨rfl, hr⟩, fun piece hpiece => hlater (hrs piece hpiece)⟩

theorem not_mem_of_mem_split {sep : Char} {t piece : Text} (h : piece ∈ split sep t) :
    sep ∉ piece := by
  intro hmem
  have := eq_false_of_mem_splitWhere h sep hmem
  simp at this

theorem split_join {sep : Char} {pieces : List Text} (hne : pieces ≠ [])
    (hpieces : ∀ piece ∈ pieces, sep ∉ piece) : split sep (join [sep] pieces) = pieces := by
  fun_induction join [sep] pieces with
  | case1 => exact absurd rfl hne
  | case2 piece => exact split_of_not_mem (hpieces piece List.mem_cons_self)
  | case3 piece next rest ih =>
      rw [List.append_assoc, List.singleton_append, split_append_cons,
        split_of_not_mem (hpieces piece List.mem_cons_self),
        ih (List.cons_ne_nil _ _) fun other h => hpieces other (List.mem_cons_of_mem _ h)]
      rfl

theorem join_cons {sep piece : Text} {pieces : List Text} (h : pieces ≠ []) :
    join sep (piece :: pieces) = piece ++ sep ++ join sep pieces := by
  obtain ⟨next, rest, rfl⟩ := List.exists_cons_of_ne_nil h
  rfl

theorem join_append {sep : Text} {first rest : List Text} (hfirst : first ≠ [])
    (hrest : rest ≠ []) :
    join sep (first ++ rest) = join sep first ++ sep ++ join sep rest := by
  induction first with
  | nil => exact absurd rfl hfirst
  | cons piece pieces ih =>
      by_cases hpieces : pieces = []
      · subst hpieces
        rw [List.singleton_append, join_cons hrest]
        rfl
      · rw [List.cons_append, join_cons (List.append_ne_nil_of_left_ne_nil hpieces _),
          ih hpieces, join_cons hpieces]
        simp only [List.append_assoc]

theorem exists_join_eq_append (sep piece : Text) (pieces : List Text) :
    ∃ behind, join sep (piece :: pieces) = piece ++ behind := by
  by_cases hpieces : pieces = []
  · subst hpieces
    exact ⟨[], (List.append_nil piece).symm⟩
  · rw [join_cons hpieces, List.append_assoc]
    exact ⟨_, rfl⟩

theorem exists_join_concat_eq_append (sep piece : Text) (pieces : List Text) :
    ∃ front, join sep (pieces ++ [piece]) = front ++ piece := by
  by_cases hpieces : pieces = []
  · subst hpieces
    exact ⟨[], rfl⟩
  · rw [join_append hpieces (List.cons_ne_nil piece [])]
    exact ⟨_, rfl⟩

/-- A join of pieces that are not empty starts and ends with a character of theirs. -/
theorem exists_mem_of_ends_join {sep : Text} {pieces : List Text}
    (hpieces : ∀ piece ∈ pieces, piece ≠ []) {c : Char}
    (hc : (join sep pieces).head? = some c ∨ (join sep pieces).getLast? = some c) :
    ∃ piece ∈ pieces, c ∈ piece := by
  rcases List.eq_nil_or_concat pieces with rfl | ⟨front, last, hconcat⟩
  · simp [join] at hc
  · rw [List.concat_eq_append] at hconcat
    rcases hc with hc | hc
    · obtain ⟨first, rest, hcons⟩ := List.exists_cons_of_ne_nil
        (hconcat ▸ List.append_ne_nil_of_right_ne_nil front (List.cons_ne_nil last []))
      have hfirst : first ∈ pieces := hcons ▸ List.mem_cons_self
      obtain ⟨behind, hjoin⟩ := exists_join_eq_append sep first rest
      rw [hcons, hjoin, List.head?_append_of_ne_nil _ (hpieces first hfirst)] at hc
      exact ⟨first, hfirst, List.mem_of_head? hc⟩
    · have hlast : last ∈ pieces := hconcat ▸ List.mem_append_right front List.mem_cons_self
      obtain ⟨before, hjoin⟩ := exists_join_concat_eq_append sep last front
      rw [hconcat, hjoin, List.getLast?_append_of_ne_nil _ (hpieces last hlast)] at hc
      exact ⟨last, hlast, List.mem_of_getLast? hc⟩

/-- Joins of lists that differ in one piece tell the pieces apart. -/
theorem join_middle_inj {sep piece piece' : Text} {front behind : List Text}
    (h : join sep (front ++ piece :: behind) = join sep (front ++ piece' :: behind)) :
    piece = piece' := by
  induction front with
  | nil =>
      by_cases hbehind : behind = []
      · subst hbehind
        exact h
      · rw [List.nil_append, List.nil_append, join_cons hbehind, join_cons hbehind,
          List.append_assoc, List.append_assoc] at h
        exact List.append_cancel_right h
  | cons first front ih =>
      rw [List.cons_append, List.cons_append, join_cons (by simp), join_cons (by simp)] at h
      exact ih (List.append_cancel_left h)

theorem mem_join_of_mem {sep piece : Text} {pieces : List Text} {c : Char}
    (hpiece : piece ∈ pieces) (hc : c ∈ piece) : c ∈ join sep pieces := by
  fun_induction join sep pieces with
  | case1 => cases hpiece
  | case2 only =>
      obtain rfl := List.mem_singleton.mp hpiece
      exact hc
  | case3 first next rest ih =>
      rw [List.append_assoc]
      rcases List.mem_cons.mp hpiece with rfl | hpiece
      · exact List.mem_append_left _ hc
      · exact List.mem_append_right _ (List.mem_append_right _ (ih hpiece))

theorem mem_or_mem_of_mem_join {sep : Text} {pieces : List Text} {c : Char}
    (hc : c ∈ join sep pieces) : c ∈ sep ∨ ∃ piece ∈ pieces, c ∈ piece := by
  fun_induction join sep pieces with
  | case1 => cases hc
  | case2 piece => exact .inr ⟨piece, List.mem_singleton_self piece, hc⟩
  | case3 first next rest ih =>
      rw [List.append_assoc] at hc
      rcases List.mem_append.mp hc with hc | hc
      · exact .inr ⟨first, List.mem_cons_self, hc⟩
      · rcases List.mem_append.mp hc with hc | hc
        · exact .inl hc
        · rcases ih hc with hsep | ⟨piece, hpiece, hc⟩
          · exact .inl hsep
          · exact .inr ⟨piece, List.mem_cons_of_mem _ hpiece, hc⟩

theorem mem_of_mem_split {sep c : Char} {t piece : Text} (hpiece : piece ∈ split sep t)
    (hc : c ∈ piece) : c ∈ t := by
  rw [← join_split sep t]
  exact mem_join_of_mem hpiece hc

/-- Two cuts at the first occurrence of a character are one. -/
theorem append_cons_inj_of_first {c : Char} {s s' t t' : Text} (hs : c ∉ s) (hs' : c ∉ s')
    (h : s ++ c :: t = s' ++ c :: t') : s = s' ∧ t = t' := by
  induction s generalizing s' with
  | nil =>
      cases s' with
      | nil => exact ⟨rfl, (List.cons.inj h).2⟩
      | cons d ds => exact absurd ((List.cons.inj h).1 ▸ List.mem_cons_self) hs'
  | cons d ds ih =>
      cases s' with
      | nil => exact absurd ((List.cons.inj h).1 ▸ List.mem_cons_self) hs
      | cons e es =>
          obtain ⟨rfl, htail⟩ := List.cons.inj h
          obtain ⟨rfl, rfl⟩ :=
            ih (List.not_mem_of_not_mem_cons hs) (List.not_mem_of_not_mem_cons hs') htail
          exact ⟨rfl, rfl⟩

/-- Two cuts at the last occurrence of a character are one. -/
theorem append_cons_inj_of_last {c : Char} {s s' t t' : Text} (ht : c ∉ t) (ht' : c ∉ t')
    (h : s ++ c :: t = s' ++ c :: t') : s = s' ∧ t = t' := by
  have hreverse := congrArg List.reverse h
  simp only [List.reverse_append, List.reverse_cons, List.append_assoc, List.singleton_append]
    at hreverse
  obtain ⟨hbehind, hfront⟩ := append_cons_inj_of_first (mt List.mem_reverse.mp ht)
    (mt List.mem_reverse.mp ht') hreverse
  exact ⟨List.reverse_inj.mp hfront, List.reverse_inj.mp hbehind⟩

theorem isPrefix_of_isPrefix_append_cons {c : Char} {pat s t : Text} (hc : c ∉ pat)
    (h : pat <+: s ++ c :: t) : pat <+: s := by
  have hcut : s ++ [c] <+: s ++ c :: t := ⟨t, by simp⟩
  rcases List.prefix_or_prefix_of_prefix h hcut with h | hcut
  · rcases List.prefix_concat_iff.mp h with rfl | h
    · exact absurd (List.mem_append_right s List.mem_cons_self) hc
    · exact h
  · exact absurd (hcut.subset (List.mem_append_right s List.mem_cons_self)) hc

/-- What does not hold the character stands on one side of it. -/
theorem isInfix_append_cons {c : Char} {pat s t : Text} (hc : c ∉ pat)
    (h : pat <:+: s ++ c :: t) : pat <:+: s ∨ pat <:+: t := by
  induction s with
  | nil =>
      rcases List.infix_cons_iff.mp h with hpat | h
      · exact .inl (isPrefix_of_isPrefix_append_cons (s := []) hc hpat).isInfix
      · exact .inr h
  | cons d ds ih =>
      rcases List.infix_cons_iff.mp h with hpat | h
      · exact .inl (isPrefix_of_isPrefix_append_cons (s := d :: ds) hc hpat).isInfix
      · rcases ih h with h | h
        · exact .inl (h.trans (List.suffix_cons d ds).isInfix)
        · exact .inr h

theorem exists_isInfix_of_isInfix_join {c : Char} {pat : Text} {pieces : List Text}
    (hpat : pat ≠ []) (hc : c ∉ pat) (h : pat <:+: join [c] pieces) :
    ∃ piece ∈ pieces, pat <:+: piece := by
  fun_induction join [c] pieces with
  | case1 => exact absurd (List.infix_nil.mp h) hpat
  | case2 piece => exact ⟨piece, List.mem_singleton_self piece, h⟩
  | case3 first next rest ih =>
      rw [List.append_assoc, List.singleton_append] at h
      rcases isInfix_append_cons hc h with h | h
      · exact ⟨first, List.mem_cons_self, h⟩
      · obtain ⟨piece, hpiece, h⟩ := ih h
        exact ⟨piece, List.mem_cons_of_mem _ hpiece, h⟩

/-- The number of pieces that are not empty. -/
def filled (pieces : List Text) : Nat := pieces.countP (!·.isEmpty)

theorem filled_cons_le {piece piece' : Text} {pieces pieces' : List Text}
    (hpiece : piece ≠ [] → piece' ≠ []) (hpieces : filled pieces ≤ filled pieces') :
    filled (piece :: pieces) ≤ filled (piece' :: pieces') := by
  unfold filled at hpieces ⊢
  rw [List.countP_cons, List.countP_cons]
  by_cases hempty : piece = []
  · simp only [hempty, List.isEmpty_nil, Bool.not_true, Bool.false_eq_true, if_false]
    omega
  · simp only [List.isEmpty_eq_false_iff.mpr hempty,
      List.isEmpty_eq_false_iff.mpr (hpiece hempty), Bool.not_false, if_true]
    omega

/-- What is added at the end of a text continues its last piece and adds pieces behind it. -/
theorem filled_split_le (sep : Char) (s t : Text) :
    filled (split sep s) ≤ filled (split sep (s ++ t)) := by
  -- The first piece is kept apart: a character in front of the text makes it longer.
  suffices h : ∃ piece pieces piece' pieces',
      split sep s = piece :: pieces ∧ split sep (s ++ t) = piece' :: pieces' ∧
      (piece ≠ [] → piece' ≠ []) ∧ filled pieces ≤ filled pieces' by
    obtain ⟨piece, pieces, piece', pieces', hs, hst, hpiece, hpieces⟩ := h
    rw [hs, hst]
    exact filled_cons_le hpiece hpieces
  induction s with
  | nil =>
      obtain ⟨piece', pieces', hpieces⟩ :=
        List.exists_cons_of_ne_nil (splitWhere_ne_nil (· == sep) t)
      exact ⟨[], [], piece', pieces', rfl, hpieces, fun h => absurd rfl h, Nat.zero_le _⟩
  | cons c cs ih =>
      obtain ⟨piece, pieces, piece', pieces', hs, hst, hpiece, hpieces⟩ := ih
      unfold split at hs hst ⊢
      rw [List.cons_append, splitWhere, splitWhere, hs, hst]
      by_cases hc : (c == sep) = true
      · simp only [hc, if_true]
        exact ⟨_, _, _, _, rfl, rfl, id, filled_cons_le hpiece hpieces⟩
      · simp only [hc, Bool.false_eq_true, if_false]
        exact ⟨_, _, _, _, rfl, rfl, fun _ => List.cons_ne_nil _ _, hpieces⟩

end Partials.Text
