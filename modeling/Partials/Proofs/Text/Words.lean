import Partials.Proofs.Text.Joining
import Partials.Proofs.Text.Trimming
import Partials.Text.Lines

/-!
# Words and the blanks between them

The words of a text do not depend on which blanks stand between them, or on those at its ends.
-/

namespace Partials.Text

/-- No character of the text is blank. -/
def Tight (t : Text) : Prop := ∀ c ∈ t, isBlank c = false

instance (t : Text) : Decidable t.Tight :=
  List.decidableBAll (isBlank · = false) t

theorem tight_of_mem_words {t word : Text} (h : word ∈ words t) : word.Tight :=
  eq_false_of_mem_splitWhere (List.mem_filter.mp h).1

theorem ne_nil_of_mem_words {t word : Text} (h : word ∈ words t) : word ≠ [] := by
  have hkept := (List.mem_filter.mp h).2
  simpa using hkept

theorem isInfix_of_mem_words {t word : Text} (h : word ∈ words t) : word <:+: t :=
  isInfix_of_mem_splitWhere (List.mem_filter.mp h).1

theorem words_append_cons {c : Char} (hc : isBlank c = true) (s t : Text) :
    words (s ++ c :: t) = words s ++ words t := by
  unfold words
  rw [splitWhere_append_cons hc, List.filter_append]

theorem words_cons {c : Char} (hc : isBlank c = true) (t : Text) : words (c :: t) = words t :=
  words_append_cons hc [] t

theorem words_of_tight {t : Text} (hne : t ≠ []) (ht : t.Tight) : words t = [t] := by
  rw [words, splitWhere_of_forall ht, List.filter_cons_of_pos]
  · rfl
  · rw [List.isEmpty_eq_false_iff.mpr hne]
    rfl

/-- What a text starts with starts its first word, if no blank is in it. -/
theorem exists_words_append {s : Text} (hne : s ≠ []) (hs : s.Tight) (t : Text) :
    ∃ rest behind, words (s ++ t) = (s ++ rest) :: behind := by
  induction t generalizing s with
  | nil => exact ⟨[], [], by rw [List.append_nil, words_of_tight hne hs]⟩
  | cons c cs ih =>
      cases hc : isBlank c with
      | true =>
          refine ⟨[], words cs, ?_⟩
          rw [words_append_cons hc, words_of_tight hne hs, List.append_nil]
          rfl
      | false =>
          have hmore : (s ++ [c]).Tight := by
            intro d hd
            rcases List.mem_append.mp hd with hd | hd
            · exact hs d hd
            · rw [List.mem_singleton.mp hd]
              exact hc
          obtain ⟨rest, behind, hwords⟩ := ih (List.append_ne_nil_of_left_ne_nil hne [c]) hmore
          rw [List.append_cons]
          exact ⟨c :: rest, behind, by rw [hwords, List.append_cons s c rest]⟩

/-- Texts without blanks, joined with a blank, are its words again. -/
theorem words_join {c : Char} (hc : isBlank c = true) {pieces : List Text}
    (hpieces : ∀ piece ∈ pieces, piece ≠ [] ∧ piece.Tight) : words (join [c] pieces) = pieces := by
  fun_induction join [c] pieces with
  | case1 => rfl
  | case2 piece =>
      obtain ⟨hne, ht⟩ := hpieces piece List.mem_cons_self
      exact words_of_tight hne ht
  | case3 first next rest ih =>
      obtain ⟨hne, ht⟩ := hpieces first List.mem_cons_self
      rw [List.append_assoc, List.singleton_append, words_append_cons hc, words_of_tight hne ht,
        ih fun piece hpiece => hpieces piece (List.mem_cons_of_mem _ hpiece)]
      rfl

variable {blanks : Text}

theorem words_blanks_append (hblanks : ∀ c ∈ blanks, isBlank c = true) (t : Text) :
    words (blanks ++ t) = words t := by
  induction blanks with
  | nil => rfl
  | cons c cs ih =>
      rw [List.cons_append, words_cons (hblanks c List.mem_cons_self)]
      exact ih fun d hd => hblanks d (List.mem_cons_of_mem _ hd)

theorem words_append_blanks (t : Text) (hblanks : ∀ c ∈ blanks, isBlank c = true) :
    words (t ++ blanks) = words t := by
  cases blanks with
  | nil => rw [List.append_nil]
  | cons c cs =>
      have hcs : words cs = [] := by
        have := words_blanks_append (fun d hd => hblanks d (List.mem_cons_of_mem c hd)) []
        rwa [List.append_nil] at this
      rw [words_append_cons (hblanks c List.mem_cons_self), hcs, List.append_nil]

theorem words_trimStart (t : Text) : words (trimStart t) = words t := by
  rw [← words_blanks_append isBlank_of_mem_lead (trimStart t), lead_append_trimStart]

theorem words_trimEnd (t : Text) : words (trimEnd t) = words t := by
  obtain ⟨blanks, hblanks, htail⟩ := exists_trimEnd_append t
  rw [← words_append_blanks (trimEnd t) hblanks, ← htail]

/-- A line ending is a blank in either form. -/
theorem words_normalizeLineEndings (t : Text) : words (normalizeLineEndings t) = words t := by
  -- A word may go on across the place of the induction, so what stands in front is kept.
  suffices h : ∀ s : Text, words (s ++ normalizeLineEndings t) = words (s ++ t) from h []
  fun_induction normalizeLineEndings t with
  | case1 => exact fun s => rfl
  | case2 c => exact fun s => rfl
  | case3 c d cs hending ih =>
      obtain ⟨rfl, rfl⟩ := hending
      intro s
      rw [words_append_cons isBlank_newline, words_append_cons (c := '\r') rfl,
        words_cons isBlank_newline]
      exact congrArg (words s ++ ·) (ih [])
  | case4 c d cs hending ih =>
      intro s
      have hshift := ih (s ++ [c])
      rwa [List.append_assoc, List.append_assoc] at hshift

end Partials.Text
