import Partials.Proofs.Directives.AttributeText
import Partials.Proofs.Directives.RoundTrip
import Partials.Proofs.Path.Respelling

/-!
# An annotation with another spelling of its destination

The destination of an annotation is the last value of `extract` among its words. Where that value is
written with other slashes, the map of directives keeps its keys and all other values; the entry of
`extract` holds the value as it is written (`parse_respelled`), and so do the attributes
(`map_softened_eq_of_attributes_eq`).
-/

namespace Partials.Directives

section

variable {d : Directives} {key key' : Text} {value value' : Value}

/-- Attributes show the text of each entry, except that its quotes are single. -/
theorem map_softened_eq_of_attributes_eq {t t' : Text} (hget : d.get? key = some (.text t))
    (h : (d.insert key (.text t')).attributes = d.attributes) :
    t'.map softened = t.map softened := by
  obtain ⟨front, behind, hentries, hinsert⟩ := exists_entries_insert hget (.text t')
  have hwraps : ∃ wraps : List Text,
      d.attributes = Text.join [' '] (d.entries.flatMap entryAttributes ++ wraps) ∧
      (d.insert key (.text t')).attributes =
        Text.join [' '] ((d.insert key (.text t')).entries.flatMap entryAttributes ++ wraps) := by
    by_cases hkey : wrapKey = key
    · subst hkey
      refine ⟨[], ?_, ?_⟩
      · simp only [attributes, hget]
      · simp only [attributes, get?_insert, if_true]
    · exact ⟨_, rfl, by simp only [attributes, get?_insert, if_neg hkey]⟩
  obtain ⟨wraps, hattributes, hattributes'⟩ := hwraps
  rw [hattributes, hattributes', hinsert, hentries] at h
  simp only [List.flatMap_append, List.flatMap_cons, List.append_assoc] at h
  have hpiece : [] ++ attributeText key (.text t') = [] ++ attributeText key (.text t) :=
    Text.join_middle_inj h
  have hvalue := (attributeValue_eq_of_append hpiece).2
  rw [attributeValue_text, attributeValue_text] at hvalue
  exact Json.escape_injective hvalue

end

/-- The word between the two lists holds the last value of `extract`, behind its key or as the bare
word after it. -/
def HoldsExtract (front : List Text) (word : Text) (behind : List Text) : Prop :=
  ((∃ value, word = extractKey ++ ':' :: value) ∨
    (front.getLast? = some (extractKey ++ [':']) ∧ Word.ofText word = .bare word)) ∧
  ∀ value, Word.directive extractKey value ∉ behind.map Word.ofText

/-- The second annotation says the words of the first, but for the slashes in the last value of
`extract`, some of which it writes as backslashes. -/
def RespellsExtract (label label' : Text) : Prop :=
  ∃ front word word' behind,
    Text.words (body label) = front ++ word :: behind ∧
    Text.words (body label') = front ++ word' :: behind ∧
    HoldsExtract front word behind ∧ Path.Respells word word'

theorem isKey_extractKey : IsKey extractKey := by decide

theorem valueOf_extractKey (t : Text) : valueOf extractKey t = .text t :=
  if_neg fun hlist => hlist.1 rfl

/-- A bare word is bare in every spelling. -/
theorem Word.ofText_of_respells {t t' : Text} (h : Path.Respells t t')
    (hbare : Word.ofText t = .bare t) : Word.ofText t' = .bare t' := by
  rcases Word.ofText_cases t' with ⟨key, value, hkey, rfl, -⟩ | hword
  · have hfront : '\\' ∉ key ++ [':'] := by
      intro hmem
      rcases List.mem_append.mp hmem with hmem | hmem
      · exact absurd (hkey.2 _ hmem) (by decide)
      · exact absurd hmem (by decide)
    rw [List.append_cons] at h
    obtain ⟨value', rfl, -⟩ := h.append_of hfront
    rw [← List.append_cons, Word.ofText_append_cons hkey] at hbare
    cases hbare
  · exact hword

/-- A word that holds a value of `extract` sets it, and leaves the key pending if it is empty. -/
theorem parse_of_words_eq_append_cons {label value : Text} {front behind : List Text}
    (hwords : Text.words (body label) = front ++ (extractKey ++ ':' :: value) :: behind) :
    parse label = empty.insertAll (readings none (front.map Word.ofText) ++
      (extractKey, .text value) ::
        readings (Word.directive extractKey value).leaves? (behind.map Word.ofText)) := by
  rw [parse, hwords, List.map_append, List.map_cons, Word.ofText_append_cons isKey_extractKey,
    readWords_eq_insertAll, readings_append, readings, Word.reading?, valueOf_extractKey]
  rfl

theorem extractKey_not_mem_readings {words : List Word}
    (h : ∀ t, Word.directive extractKey t ∉ words) :
    extractKey ∉ (readings none words).map Prod.fst := by
  intro hmem
  rcases mem_keys_readings hmem with hpending | ⟨t, ht⟩
  · cases hpending
  · exact h t ht

/-- Another spelling of the last value of `extract` changes that entry of the map and no other. -/
theorem parse_respelled {label label' : Text} (h : RespellsExtract label label') :
    parse label' = parse label ∨
      ∃ written written', (parse label).get? extractKey = some (.text written) ∧
        Path.Respells written written' ∧
        parse label' = (parse label).insert extractKey (.text written') := by
  obtain ⟨front, word, word', behind, hwords, hwords', ⟨hholds, hlast⟩, hrespells⟩ := h
  have hnew : extractKey ∉ (readings none (behind.map Word.ofText)).map Prod.fst :=
    extractKey_not_mem_readings hlast
  -- Both annotations set the same entries before and after that of the last value.
  suffices hset : ∃ entries written written', Path.Respells written written' ∧
      parse label = empty.insertAll (entries ++ (extractKey, .text written) ::
        readings none (behind.map Word.ofText)) ∧
      parse label' = empty.insertAll (entries ++ (extractKey, .text written') ::
        readings none (behind.map Word.ofText)) ∨ parse label' = parse label by
    obtain ⟨entries, written, written', ⟨hspelling, hparse, hparse'⟩ | hsame⟩ := hset
    · have hget := get?_insertAll_append_cons empty entries hnew (.text written)
      have hinsert := insertAll_append_cons empty entries hnew (.text written) (.text written')
      rw [← hparse] at hget hinsert
      exact .inr ⟨written, written', hget, hspelling, hparse'.trans hinsert⟩
    · exact .inl hsame
  rcases hholds with ⟨value, rfl⟩ | ⟨hfront, hbare⟩
  · -- The word is `extract:value`.
    rw [List.append_cons] at hrespells
    obtain ⟨value', rfl, hvalue⟩ := hrespells.of_append (by decide)
    rw [← List.append_cons] at hwords'
    refine ⟨readings none (front.map Word.ofText), value, value', ?_⟩
    cases hvalue with
    | nil => exact .inr (by rw [parse, parse, hwords, hwords'])
    | cons hchar hrest =>
        exact .inl ⟨.cons hchar hrest, parse_of_words_eq_append_cons hwords,
          parse_of_words_eq_append_cons hwords'⟩
  · -- The word follows `extract:`.
    obtain ⟨front, rfl⟩ := List.getLast?_eq_some_iff.mp hfront
    have hparse : ∀ {label word : Text}, Word.ofText word = .bare word →
        Text.words (body label) = front ++ [extractKey ++ [':']] ++ word :: behind →
        parse label = empty.insertAll (readings none (front.map Word.ofText) ++
          [(extractKey, .text [])] ++ (extractKey, .text word) ::
            readings none (behind.map Word.ofText)) := by
      intro label word hbare hwords
      rw [List.append_assoc, List.singleton_append] at hwords
      rw [parse_of_words_eq_append_cons hwords, List.map_cons, hbare, List.append_assoc,
        Word.leaves?, readings, Word.reading?, Option.map_some, valueOf_extractKey]
      rfl
    exact ⟨_, word, word', .inl ⟨hrespells, hparse hbare hwords,
      hparse (Word.ofText_of_respells hrespells hbare) hwords'⟩⟩

theorem destination?_eq_some_iff {d : Directives} {written : Text} :
    d.destination? = some written ↔ d.get? extractKey = some (.text written) ∧ written ≠ [] := by
  unfold destination?
  constructor
  · intro h
    split at h
    · next c cs hget =>
      obtain rfl := Option.some.inj h
      exact ⟨hget, List.cons_ne_nil _ _⟩
    · cases h
  · rintro ⟨hget, hne⟩
    obtain ⟨c, cs, rfl⟩ := List.exists_cons_of_ne_nil hne
    rw [hget]

theorem destination?_eq_none_iff {d : Directives} {written : Text}
    (hget : d.get? extractKey = some (.text written)) : d.destination? = none ↔ written = [] := by
  constructor
  · intro hnone
    by_contra hne
    rw [destination?_eq_some_iff.mpr ⟨hget, hne⟩] at hnone
    cases hnone
  · rintro rfl
    rw [destination?, hget]

/-- An annotation and its other spelling name a destination both or neither of them. -/
theorem destination?_respelled {label label' : Text} (h : RespellsExtract label label') :
    ((parse label).destination? = none → parse label' = parse label) ∧
      ∀ written, (parse label).destination? = some written →
        ∃ written', Path.Respells written written' ∧
          (parse label').destination? = some written' ∧
          parse label' = (parse label).insert extractKey (.text written') := by
  rcases parse_respelled h with hsame | ⟨t, t', hget, hrespells, hinsert⟩
  · refine ⟨fun _ => hsame, fun written hwritten => ⟨written, ?_, hsame ▸ hwritten, ?_⟩⟩
    · exact List.forall₂_same.mpr fun c _ => .inl rfl
    · rw [hsame, insert_of_get? (destination?_eq_some_iff.mp hwritten).1]
  · constructor
    · intro hnone
      obtain rfl := (destination?_eq_none_iff hget).mp hnone
      cases hrespells
      rw [hinsert, insert_of_get? hget]
    · intro written hwritten
      obtain ⟨hwritten, hne⟩ := destination?_eq_some_iff.mp hwritten
      obtain rfl : t = written := Value.text.inj (Option.some.inj (hget.symm.trans hwritten))
      refine ⟨t', hrespells, destination?_eq_some_iff.mpr ⟨?_, ?_⟩, hinsert⟩
      · rw [hinsert, get?_insert, if_pos rfl]
      · rintro rfl
        cases hrespells
        exact hne rfl

end Partials.Directives
