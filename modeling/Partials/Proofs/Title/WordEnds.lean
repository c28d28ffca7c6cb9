import Partials.Proofs.Text.Capital
import Partials.Proofs.Text.Joining
import Partials.Title

/-!
# Where words end

The words of a title hold the letters and numerals of a text, all of them in their order. Between
two that follow each other a word ends exactly if other characters stand between them or their
classes ask for it (`words_end_iff`), and a title is its words with one space between neighbours.
-/

namespace Partials

namespace Title

/-- The letters and numerals of a text. -/
def letters (t : Text) : Text := t.filter isAlphanumeric

/-- Two letters or numerals of a text with only other characters between them. -/
structure Neighbours (t front : Text) (p : Char) (gap : Text) (c : Char) (behind : Text) :
    Prop where
  eq : t = front ++ p :: (gap ++ c :: behind)
  first : isAlphanumeric p = true
  gap_skipped : ∀ d ∈ gap, isAlphanumeric d = false
  second : isAlphanumeric c = true

/-- What makes a word end between `p` and `c`: something stands between them, a capital follows a
small letter, a letter and a numeral meet, or the second of two capitals has a small letter behind
it. -/
def EndsWord (p : Char) (gap : Text) (c : Char) (behind : Text) : Prop :=
  gap ≠ [] ∨
  (isLowercase p = true ∧ isUppercase c = true) ∨
  (isAlphabetic p = true ∧ isNumeric c = true) ∨
  (isNumeric p = true ∧ isAlphabetic c = true) ∨
  (isUppercase p = true ∧ isUppercase c = true ∧ ∃ d ∈ behind.head?, isLowercase d = true)

/-- The characters of the words are `front` and `behind`, and no word holds some of both. -/
def Apart (words : List Text) (front behind : Text) : Prop :=
  ∃ firsts lasts, words = firsts ++ lasts ∧ firsts.flatten = front ∧ lasts.flatten = behind

/-- The characters of the words are `front`, `p`, `c` and `behind`, and one word holds `p` and
`c`. -/
def Together (words : List Text) (front : Text) (p c : Char) (behind : Text) : Prop :=
  ∃ firsts left right lasts, words = firsts ++ (left ++ p :: c :: right) :: lasts ∧
    firsts.flatten ++ left = front ∧ right ++ lasts.flatten = behind

theorem letters_append (s t : Text) : letters (s ++ t) = letters s ++ letters t :=
  List.filter_append s t

theorem letters_cons_of_isAlphanumeric {c : Char} (hc : isAlphanumeric c = true) (t : Text) :
    letters (c :: t) = c :: letters t :=
  List.filter_cons_of_pos hc

theorem letters_cons_skipped {c : Char} (hc : isAlphanumeric c = false) (t : Text) :
    letters (c :: t) = letters t :=
  List.filter_cons_of_neg (Bool.not_eq_true _ ▸ hc)

theorem flatten_wordOf (w : Text) : (wordOf w).flatten = w := by
  unfold wordOf
  split
  · next hempty => exact hempty.symm
  · exact List.flatten_singleton

theorem wordOf_concat (left : Text) (p : Char) : wordOf (left ++ [p]) = [left ++ [p]] :=
  if_neg (List.append_ne_nil_of_right_ne_nil left (List.cons_ne_nil p []))

theorem ne_nil_of_mem_wordOf {w word : Text} (h : word ∈ wordOf w) : word ≠ [] := by
  unfold wordOf at h
  split at h
  · cases h
  · next hne => exact List.mem_singleton.mp h ▸ hne

theorem wordsFrom_cons_skipped {c : Char} (hc : isAlphanumeric c = false) (current cs : Text) :
    wordsFrom current (c :: cs) = wordOf current ++ wordsFrom [] cs := by
  rw [wordsFrom, hc]
  rfl

theorem wordsFrom_nil_cons {c : Char} (hc : isAlphanumeric c = true) (cs : Text) :
    wordsFrom [] (c :: cs) = wordsFrom [c] cs := by
  rw [wordsFrom, hc]
  rfl

theorem wordsFrom_concat_cons {c : Char} (hc : isAlphanumeric c = true) (left : Text) (p : Char)
    (cs : Text) :
    wordsFrom (left ++ [p]) (c :: cs) =
      if isBoundary p c cs.head? then (left ++ [p]) :: wordsFrom [c] cs
      else wordsFrom (left ++ [p, c]) cs := by
  rw [wordsFrom, hc, List.getLast?_concat]
  simp

/-- A character goes to the end of a word, the one that was read or a new one, or it is skipped. -/
theorem exists_wordsFrom_cons (current : Text) (c : Char) (cs : Text) :
    ∃ firsts word, wordsFrom current (c :: cs) = firsts ++ wordsFrom word cs ∧
      (∀ w ∈ firsts, w ≠ []) ∧ firsts.flatten ++ word = current ++ letters [c] ∧
      (isAlphanumeric c = true → ∃ left, word = left ++ [c]) := by
  cases hc : isAlphanumeric c with
  | false =>
      refine ⟨wordOf current, [], wordsFrom_cons_skipped hc current cs,
        fun w => ne_nil_of_mem_wordOf, ?_, nofun⟩
      rw [flatten_wordOf, letters_cons_skipped hc]
      rfl
  | true =>
      rw [letters_cons_of_isAlphanumeric hc]
      rcases List.eq_nil_or_concat current with rfl | ⟨left, p, rfl⟩
      · exact ⟨[], [c], wordsFrom_nil_cons hc cs, nofun, rfl, fun _ => ⟨[], rfl⟩⟩
      · rw [List.concat_eq_append, wordsFrom_concat_cons hc]
        split
        · refine ⟨[left ++ [p]], [c], rfl, ?_, ?_, fun _ => ⟨[], rfl⟩⟩
          · intro w hw
            rw [List.mem_singleton.mp hw]
            exact List.append_ne_nil_of_right_ne_nil left (List.cons_ne_nil p [])
          · rw [List.flatten_singleton]
            rfl
        · refine ⟨[], left ++ [p, c], rfl, nofun, ?_, fun _ => ⟨left ++ [p], ?_⟩⟩
          · rw [List.flatten_nil, List.nil_append, List.append_assoc]
            rfl
          · rw [List.append_assoc]
            rfl

/-- What was read of a text is in words that are complete and in one that may go on. -/
theorem exists_wordsFrom_append (current front tail : Text) :
    ∃ firsts word, wordsFrom current (front ++ tail) = firsts ++ wordsFrom word tail ∧
      (∀ w ∈ firsts, w ≠ []) ∧ firsts.flatten ++ word = current ++ letters front := by
  -- The word that may go on is all that one character leaves to the next.
  induction front generalizing current with
  | nil => exact ⟨[], current, rfl, nofun, (List.append_nil current).symm⟩
  | cons c front ih =>
      obtain ⟨firsts, word, hwords, hfirsts, hread, -⟩ :=
        exists_wordsFrom_cons current c (front ++ tail)
      obtain ⟨seconds, word', hwords', hseconds, hread'⟩ := ih word
      refine ⟨firsts ++ seconds, word', ?_, ?_, ?_⟩
      · rw [List.cons_append, hwords, hwords', List.append_assoc]
      · exact List.forall_mem_append.mpr ⟨hfirsts, hseconds⟩
      · rw [List.flatten_append, List.append_assoc, hread', ← List.append_assoc, hread,
          List.append_assoc, ← letters_append]
        rfl

theorem wordsFrom_nil (current : Text) : wordsFrom current [] = wordOf current := rfl

theorem flatten_wordsFrom (current t : Text) :
    (wordsFrom current t).flatten = current ++ letters t := by
  obtain ⟨firsts, word, hwords, -, hread⟩ := exists_wordsFrom_append current t []
  rw [List.append_nil, wordsFrom_nil] at hwords
  rw [hwords, List.flatten_append, flatten_wordOf, hread]

theorem ne_nil_of_mem_wordsFrom {current t w : Text} (hw : w ∈ wordsFrom current t) : w ≠ [] := by
  obtain ⟨firsts, word, hwords, hfirsts, -⟩ := exists_wordsFrom_append current t []
  rw [List.append_nil, wordsFrom_nil] at hwords
  rw [hwords] at hw
  rcases List.mem_append.mp hw with hw | hw
  · exact hfirsts w hw
  · exact ne_nil_of_mem_wordOf hw

/-- A word that was begun goes on in the first of the words. -/
theorem exists_wordsFrom_eq_cons (left : Text) (p : Char) (t : Text) :
    ∃ right lasts, wordsFrom (left ++ [p]) t = (left ++ p :: right) :: lasts := by
  induction t generalizing left p with
  | nil => exact ⟨[], [], wordOf_concat left p⟩
  | cons c cs ih =>
      cases hc : isAlphanumeric c with
      | false =>
          rw [wordsFrom_cons_skipped hc, wordOf_concat]
          exact ⟨[], _, rfl⟩
      | true =>
          rw [wordsFrom_concat_cons hc]
          split
          · exact ⟨[], _, rfl⟩
          · obtain ⟨right, lasts, hwords⟩ := ih (left ++ [p]) c
            rw [List.append_assoc, List.append_assoc] at hwords
            exact ⟨c :: right, lasts, hwords⟩

theorem wordsFrom_skipped_append {gap : Text} (hgap : ∀ d ∈ gap, isAlphanumeric d = false)
    (t : Text) : wordsFrom [] (gap ++ t) = wordsFrom [] t := by
  induction gap with
  | nil => rfl
  | cons d gap ih =>
      rw [List.cons_append, wordsFrom_cons_skipped (hgap d List.mem_cons_self)]
      exact ih fun e he => hgap e (List.mem_cons_of_mem d he)

theorem endsWord_iff {p c : Char} {gap behind : Text} :
    EndsWord p gap c behind ↔ gap ≠ [] ∨ isBoundary p c behind.head? = true := by
  unfold EndsWord isBoundary
  simp only [Bool.or_eq_true, Bool.and_eq_true, Option.any_eq_true, or_assoc, and_assoc,
    Option.mem_def]

section

variable {p c : Char} {gap behind : Text}

/-- Where a word ends, its last character is the one in front and the next word starts with the one
behind. -/
theorem wordsFrom_of_endsWord (left : Text) (hgap : ∀ d ∈ gap, isAlphanumeric d = false)
    (hc : isAlphanumeric c = true) (hends : EndsWord p gap c behind) :
    wordsFrom (left ++ [p]) (gap ++ c :: behind) = (left ++ [p]) :: wordsFrom [c] behind := by
  cases gap with
  | nil =>
      have hboundary := (endsWord_iff.mp hends).resolve_left (not_not.mpr rfl)
      rw [List.nil_append, wordsFrom_concat_cons hc, if_pos hboundary]
  | cons d gap =>
      rw [List.forall_mem_cons] at hgap
      rw [List.cons_append, wordsFrom_cons_skipped hgap.1, wordOf_concat,
        wordsFrom_skipped_append hgap.2, wordsFrom_nil_cons hc]
      rfl

/-- Where no word ends, both characters are in one. -/
theorem wordsFrom_of_not_endsWord (left : Text) (hc : isAlphanumeric c = true)
    (hends : ¬ EndsWord p gap c behind) :
    wordsFrom (left ++ [p]) (gap ++ c :: behind) = wordsFrom (left ++ [p] ++ [c]) behind := by
  rw [endsWord_iff, not_or, not_not] at hends
  obtain ⟨rfl, hboundary⟩ := hends
  rw [List.nil_append, wordsFrom_concat_cons hc, if_neg hboundary, List.append_assoc]
  rfl

end

section

variable {t front gap behind : Text} {p c : Char}

/-- The words of a text, seen from one of its characters. -/
theorem Neighbours.exists_words (h : Neighbours t front p gap c behind) :
    ∃ firsts left, words t = firsts ++ wordsFrom (left ++ [p]) (gap ++ c :: behind) ∧
      firsts.flatten ++ left = letters front := by
  obtain ⟨firsts, word, hwords, -, hread⟩ :=
    exists_wordsFrom_append [] front (p :: (gap ++ c :: behind))
  obtain ⟨seconds, word', hwords', -, hread', hlast⟩ :=
    exists_wordsFrom_cons word p (gap ++ c :: behind)
  obtain ⟨left, rfl⟩ := hlast h.first
  refine ⟨firsts ++ seconds, left, ?_, ?_⟩
  · rw [words, h.eq, hwords, hwords', List.append_assoc]
  · rw [letters_cons_of_isAlphanumeric h.first, ← List.append_assoc] at hread'
    have hword : seconds.flatten ++ left = word := List.append_inj_left' hread' rfl
    rw [List.flatten_append, List.append_assoc, hword]
    exact hread

theorem Neighbours.apart (h : Neighbours t front p gap c behind) (hends : EndsWord p gap c behind) :
    Apart (words t) (letters (front ++ [p])) (letters (c :: behind)) := by
  obtain ⟨firsts, left, hwords, hread⟩ := h.exists_words
  rw [wordsFrom_of_endsWord left h.gap_skipped h.second hends] at hwords
  refine ⟨firsts ++ [left ++ [p]], wordsFrom [c] behind, ?_, ?_, ?_⟩
  · rw [List.append_assoc]
    exact hwords
  · rw [List.flatten_append, List.flatten_singleton, ← List.append_assoc, hread, letters_append,
      letters_cons_of_isAlphanumeric h.first]
    rfl
  · rw [flatten_wordsFrom, letters_cons_of_isAlphanumeric h.second]
    rfl

theorem Neighbours.together (h : Neighbours t front p gap c behind)
    (hends : ¬ EndsWord p gap c behind) :
    Together (words t) (letters front) p c (letters behind) := by
  obtain ⟨firsts, left, hwords, hread⟩ := h.exists_words
  rw [wordsFrom_of_not_endsWord left h.second hends] at hwords
  obtain ⟨right, lasts, hword⟩ := exists_wordsFrom_eq_cons (left ++ [p]) c behind
  have hflatten := flatten_wordsFrom (left ++ [p] ++ [c]) behind
  rw [hword] at hwords hflatten
  refine ⟨firsts, left, right, lasts, ?_, hread, ?_⟩
  · rw [List.append_assoc] at hwords
    exact hwords
  · rw [List.flatten_cons, List.append_cons, List.append_assoc] at hflatten
    exact List.append_cancel_left hflatten

end

/-- A cut in front of `c` goes through a word that holds `p` and `c`. -/
theorem not_apart_of_together {words : List Text} {front behind behind' : Text} {p c : Char}
    (htogether : Together words front p c behind) : ¬ Apart words (front ++ [p]) behind' := by
  rintro ⟨firsts, lasts, hcut, hfront, -⟩
  obtain ⟨firsts', left, right, lasts', hwords, hread, -⟩ := htogether
  -- The words in front of the cut have the length of `front` and one character more. Those in front
  -- of the word that holds both are too short for that, and together with it they are too long.
  have hlength := congrArg List.length hfront
  have hlength' := congrArg List.length hread
  rw [List.length_append] at hlength hlength'
  rw [List.length_singleton] at hlength
  rcases List.append_eq_append_iff.mp (hcut.symm.trans hwords) with
    ⟨more, hmore, -⟩ | ⟨more, hmore, htail⟩
  · rw [hmore, List.flatten_append, List.length_append] at hlength'
    omega
  · cases more with
    | nil =>
        rw [hmore, List.append_nil] at hlength
        omega
    | cons word more =>
        obtain ⟨rfl, -⟩ := List.cons.inj htail
        rw [hmore, List.flatten_append, List.flatten_cons] at hlength
        simp only [List.length_append, List.length_cons] at hlength
        omega

theorem isAlphanumeric_of_mem_words {t w : Text} (hw : w ∈ words t) :
    ∀ c ∈ w, isAlphanumeric c = true := by
  intro c hc
  have hmem : c ∈ (words t).flatten := List.mem_flatten.mpr ⟨w, hw, hc⟩
  rw [words, flatten_wordsFrom] at hmem
  exact (List.mem_filter.mp hmem).2

theorem space_not_mem_of_mem_words {t w : Text} (hw : w ∈ words t) : ' ' ∉ w := by
  intro hspace
  have hletter := isAlphanumeric_of_mem_words hw ' ' hspace
  exact absurd hletter (by decide)

/-- A word is capitalized in its first character, and no space gets into it. -/
theorem exists_capitalize_eq {t w : Text} (hw : w ∈ words t) :
    ∃ c cs, w = c :: cs ∧ capitalize w = capital c ++ cs ∧ capitalize w ≠ [] ∧
      ' ' ∉ capitalize w := by
  obtain ⟨c, cs, rfl⟩ := List.exists_cons_of_ne_nil (ne_nil_of_mem_wordsFrom hw)
  have hspace := space_not_mem_of_mem_words hw
  rw [List.mem_cons, not_or] at hspace
  refine ⟨c, cs, rfl, rfl, List.append_ne_nil_of_left_ne_nil (capital_ne_nil c) cs, ?_⟩
  intro hmem
  rcases List.mem_append.mp hmem with hmem | hmem
  · exact space_not_mem_capital (Ne.symm hspace.1) hmem
  · exact hspace.2 hmem

/-- No space stands at an end of a title. -/
theorem ends_ofText_ne_space (t : Text) :
    (ofText t).head? ≠ some ' ' ∧ (ofText t).getLast? ≠ some ' ' := by
  have hwords : ∀ piece ∈ (words t).map capitalize, piece ≠ [] ∧ ' ' ∉ piece := by
    intro piece hpiece
    obtain ⟨w, hw, rfl⟩ := List.mem_map.mp hpiece
    obtain ⟨-, -, -, -, hcapitalize⟩ := exists_capitalize_eq hw
    exact hcapitalize
  rw [← not_or]
  intro hends
  obtain ⟨piece, hpiece, hspace⟩ :=
    Text.exists_mem_of_ends_join (fun piece hpiece => (hwords piece hpiece).1) hends
  exact (hwords piece hpiece).2 hspace

/-- The words of a text hold its letters and numerals in their order, and none is empty. Of two
letters or numerals that follow each other, with other characters between them at most, the first
ends a word exactly if `EndsWord` says so, and otherwise both are in one. The title is the words
with a space between neighbours, each capitalized in its first character, and no other space is in
it. -/
theorem words_end_iff (t : Text) :
    ((words t).flatten = letters t ∧ ∀ w ∈ words t, w ≠ []) ∧
    (∀ front p gap c behind, Neighbours t front p gap c behind →
      (Apart (words t) (letters (front ++ [p])) (letters (c :: behind)) ↔
        EndsWord p gap c behind) ∧
      (Together (words t) (letters front) p c (letters behind) ↔ ¬ EndsWord p gap c behind)) ∧
    ofText t = Text.join [' '] ((words t).map capitalize) ∧
    (∀ w ∈ words t, ∃ c cs, w = c :: cs ∧ capitalize w = capital c ++ cs ∧ capitalize w ≠ [] ∧
      ' ' ∉ capitalize w) ∧
    (ofText t).head? ≠ some ' ' ∧ (ofText t).getLast? ≠ some ' ' := by
  refine ⟨⟨flatten_wordsFrom [] t, fun w => ne_nil_of_mem_wordsFrom⟩, ?_, rfl,
    fun w => exists_capitalize_eq, ends_ofText_ne_space t⟩
  intro front p gap c behind h
  have hfront : letters (front ++ [p]) = letters front ++ [p] := by
    rw [letters_append, letters_cons_of_isAlphanumeric h.first]
    rfl
  by_cases hends : EndsWord p gap c behind
  · have hapart := h.apart hends
    refine ⟨iff_of_true hapart hends, iff_of_false ?_ (not_not.mpr hends)⟩
    intro htogether
    exact not_apart_of_together htogether (hfront ▸ hapart)
  · have htogether := h.together hends
    refine ⟨iff_of_false ?_ hends, iff_of_true htogether hends⟩
    rw [hfront]
    exact not_apart_of_together htogether

-- A mark above a letter belongs to the letter's word.
example : words "a\u0363b c".toList = ["a\u0363b".toList, ['c']] := by decide +kernel

/-- Capitals in a row, and a letter that is a numeral too, in front of a gap. -/
def mixedText : Text := "myXMLFileⅧ--éb".toList

theorem words_end_iff_mixedText :
    Neighbours mixedText "myXM".toList 'L' [] 'F' "ileⅧ--éb".toList ∧
      Neighbours mixedText "myX".toList 'M' [] 'L' "FileⅧ--éb".toList ∧
      Neighbours mixedText "myXMLFile".toList 'Ⅷ' ['-', '-'] 'é' ['b'] ∧
      Apart (words mixedText) "myXML".toList "FileⅧéb".toList ∧
      Together (words mixedText) "myX".toList 'M' 'L' "FileⅧéb".toList ∧
      Apart (words mixedText) "myXMLFileⅧ".toList "éb".toList ∧
      ofText mixedText = "My XML File Ⅷ Éb".toList := by
  have hacronym : Neighbours mixedText "myXM".toList 'L' [] 'F' "ileⅧ--éb".toList :=
    ⟨rfl, rfl, nofun, rfl⟩
  have hcapitals : Neighbours mixedText "myX".toList 'M' [] 'L' "FileⅧ--éb".toList :=
    ⟨rfl, rfl, nofun, rfl⟩
  have hgap : Neighbours mixedText "myXMLFile".toList 'Ⅷ' ['-', '-'] 'é' ['b'] := by
    refine ⟨rfl, ?_, ?_, ?_⟩
    · decide
    · exact List.forall_mem_cons.mpr ⟨rfl, List.forall_mem_singleton.mpr rfl⟩
    · decide
  obtain ⟨-, hneighbours, -⟩ := words_end_iff mixedText
  refine ⟨hacronym, hcapitals, hgap, ?_, ?_, ?_, by decide +kernel⟩
  · exact (hneighbours _ _ _ _ _ hacronym).1.mpr (endsWord_iff.mpr (.inr (by decide)))
  · exact (hneighbours _ _ _ _ _ hcapitals).2.mpr (mt endsWord_iff.mp (by decide))
  · exact (hneighbours _ _ _ _ _ hgap).1.mpr (.inl (List.cons_ne_nil _ _))

end Title

end Partials
