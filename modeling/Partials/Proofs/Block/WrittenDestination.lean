import Partials.Proofs.Block.Acceptance
import Partials.Proofs.Directives.Respelling
import Partials.Proofs.Scan.LinePadding

/-!
# The destination as it is written

An annotation of a document starts with `extract:`, so `extract` is the first of its directives. Its
value is that of the last word that starts so, or the bare word behind that one where it has none. A
block is turned down for a missing destination exactly if neither says anything
(`extract_of_mem_spans`).
-/

namespace Partials.Directives

/-- The word has a key before its first colon. -/
def IsDirective (word : Text) : Prop := ∃ key value, IsKey key ∧ word = key ++ ':' :: value

theorem Word.isDirective_or_isBare (word : Text) :
    (IsDirective word ∧ ∃ key t, Word.ofText word = .directive key t) ∨
      (¬ IsDirective word ∧ Word.ofText word = .bare word) := by
  rcases Word.ofText_cases word with ⟨key, t, hkey, hcut, hword⟩ | hword
  · exact .inl ⟨⟨key, t, hkey, hcut⟩, key, t, hword⟩
  · refine .inr ⟨?_, hword⟩
    rintro ⟨key, t, hkey, rfl⟩
    rw [Word.ofText_append_cons hkey] at hword
    cases hword

/-- The last of the words that start with `extract:`, cut behind its colon. -/
structure LastExtract (words front : List Text) (value : Text) (behind : List Text) : Prop where
  words_eq : words = front ++ (Marker.extractWord ++ value) :: behind
  last : ∀ word ∈ behind, ¬ Marker.extractWord <+: word

/-- Neither the word with the value nor the one behind it says where to go. -/
def SaysNothing (value : Text) (behind : List Text) : Prop :=
  value = [] ∧ ∀ word ∈ behind.head?, IsDirective word

/-- What the value says, or the word behind it where it is empty. -/
inductive Says : (value : Text) → (behind : List Text) → (written : Text) → Prop
  | own {value : Text} {behind : List Text} (hne : value ≠ []) : Says value behind value
  | next {word : Text} {behind : List Text} (hbare : ¬ IsDirective word) :
      Says [] (word :: behind) word
  | nothing {value : Text} {behind : List Text} (h : SaysNothing value behind) :
      Says value behind []

section

variable {words front behind : List Text} {value written : Text}

theorem Says.eq_nil_iff (h : Says value behind written) (hbehind : ∀ word ∈ behind, word ≠ []) :
    written = [] ↔ SaysNothing value behind := by
  cases h with
  | own hne => exact ⟨fun hnil => absurd hnil hne, fun hnothing => hnothing.1⟩
  | next hbare =>
      constructor
      · intro hnil
        exact absurd hnil (hbehind _ List.mem_cons_self)
      · intro hnothing
        exact absurd (hnothing.2 _ rfl) hbare
  | nothing hnothing => exact ⟨fun _ => hnothing, fun _ => rfl⟩

theorem exists_lastExtract (h : ∃ word ∈ words, Marker.extractWord <+: word) :
    ∃ front value behind, LastExtract words front value behind := by
  induction words using List.reverseRecOn with
  | nil =>
      obtain ⟨word, hword, -⟩ := h
      cases hword
  | append_singleton words word ih =>
      by_cases hlast : Marker.extractWord <+: word
      · obtain ⟨value, rfl⟩ := hlast
        exact ⟨words, value, [], rfl, nofun⟩
      · obtain ⟨first, hfirst, hstarts⟩ := h
        have hmem : first ∈ words := by
          rcases List.mem_append.mp hfirst with hmem | hmem
          · exact hmem
          · rw [List.mem_singleton.mp hmem] at hstarts
            exact absurd hstarts hlast
        obtain ⟨front, value, behind, hwords, hbehind⟩ := ih ⟨first, hmem, hstarts⟩
        refine ⟨front, value, behind ++ [word], ?_, ?_⟩
        · rw [hwords, List.append_assoc, List.cons_append]
        · intro later hlater
          rcases List.mem_append.mp hlater with hlater | hlater
          · exact hbehind later hlater
          · rw [List.mem_singleton.mp hlater]
            exact hlast

theorem LastExtract.extractKey_not_mem (h : LastExtract words front value behind) (t : Text) :
    Word.directive extractKey t ∉ behind.map Word.ofText := by
  intro hmem
  obtain ⟨word, hword, hread⟩ := List.mem_map.mp hmem
  rcases Word.ofText_cases word with ⟨key, value, -, rfl, hdirective⟩ | hbare
  · rw [hdirective] at hread
    obtain ⟨rfl, rfl⟩ := Word.directive.inj hread
    exact h.last _ hword (List.prefix_append Marker.extractWord value)
  · rw [hbare] at hread
    cases hread

end

section

variable {label value : Text} {front behind : List Text}

/-- What the last word says is the last entry of `extract` that the words set from there on. -/
theorem exists_readings_of_lastExtract {words : List Text}
    (h : LastExtract words front value behind) :
    ∃ written earlier later, Says value behind written ∧
      (extractKey, .text value) ::
          readings (Word.directive extractKey value).leaves? (behind.map Word.ofText) =
        earlier ++ (extractKey, .text written) :: later ∧
      extractKey ∉ later.map Prod.fst := by
  have hlast := extractKey_not_mem_readings h.extractKey_not_mem
  cases value with
  | cons c cs => exact ⟨c :: cs, [], _, .own (List.cons_ne_nil c cs), rfl, hlast⟩
  | nil =>
      cases behind with
      | nil => exact ⟨[], [], [], .nothing ⟨rfl, nofun⟩, rfl, List.not_mem_nil⟩
      | cons word behind =>
          rw [List.map_cons] at hlast ⊢
          rcases Word.isDirective_or_isBare word with ⟨hdirective, key, t, hword⟩ | ⟨hbare, hword⟩
          · -- A directive is read as if no key were pending.
            have hnothing : SaysNothing [] (word :: behind) :=
              ⟨rfl, fun _ hhead => Option.some.inj hhead ▸ hdirective⟩
            rw [hword] at hlast ⊢
            exact ⟨[], [], _, .nothing hnothing, rfl, hlast⟩
          · rw [hword] at hlast ⊢
            refine ⟨word, [(extractKey, .text [])], _, .next hbare, ?_, hlast⟩
            rw [← valueOf_extractKey word]
            rfl

/-- The value of `extract` is what its last word says. -/
theorem exists_says_of_lastExtract
    (h : LastExtract (Text.words (body label)) front value behind) :
    ∃ written, Says value behind written ∧
      (parse label).get? extractKey = some (.text written) := by
  obtain ⟨written, earlier, later, hsays, hreadings, hlast⟩ := exists_readings_of_lastExtract h
  have hwords : Text.words (body label) = front ++ (extractKey ++ ':' :: value) :: behind :=
    h.words_eq
  refine ⟨written, hsays, ?_⟩
  rw [parse_of_words_eq_append_cons hwords, hreadings, ← List.append_assoc]
  exact get?_insertAll_append_cons empty _ hlast _

/-- A key that is set first has the first entry. -/
theorem entries_parse_eq_cons {t : Text}
    (hfirst : Text.words (body label) = (extractKey ++ ':' :: t) :: behind) {first : Value}
    (hget : (parse label).get? extractKey = some first) :
    ∃ rest, (parse label).entries = (extractKey, first) :: rest := by
  have hwords : Text.words (body label) = [] ++ (extractKey ++ ':' :: t) :: behind := hfirst
  have hkeys : [extractKey] <+: (parse label).keys := by
    rw [parse_of_words_eq_append_cons hwords]
    exact keys_isPrefix_insertAll (empty.insert extractKey (.text t)) _
  cases hentries : (parse label).entries with
  | nil =>
      rw [keys, hentries] at hkeys
      exact absurd hkeys (by simp)
  | cons entry rest =>
      obtain ⟨key, found⟩ := entry
      rw [keys, hentries, List.map_cons, List.cons_prefix_cons] at hkeys
      obtain ⟨rfl, -⟩ := hkeys
      rw [get?, hentries, List.lookup_cons_self] at hget
      exact ⟨rest, by rw [Option.some.inj hget]⟩

end

end Partials.Directives

namespace Partials.Scan

variable {policy : Policy} {t : Text} {span : Span}

theorem isBare_label (hspan : span ∈ (ofText policy t).spans) : Directives.IsBare span.label := by
  obtain ⟨opening, annotation, hopening, hlabel⟩ := exists_isOpening_of_mem_spans hspan
  have hbare := hopening.isBare
  obtain ⟨blanks, value, -, rfl, -⟩ := hopening
  refine ⟨?_, not_commentEnd_isInfix_label hspan⟩
  rw [hlabel, Text.trim, Directives.trimStart_of_isPrefix (List.prefix_refl _) hbare]
  exact ⟨_, (Text.dropEndWhile_append (s := Directives.extractKey) (c := ':') rfl value).symm⟩

theorem words_body_label (hspan : span ∈ (ofText policy t).spans) :
    Text.words (Directives.body span.label) = Text.words span.label := by
  rw [Directives.body_of_isPrefix (List.prefix_refl _) (isBare_label hspan), Text.words_trimEnd]

/-- The first word of an annotation starts with `extract:`. -/
theorem exists_words_label (hspan : span ∈ (ofText policy t).spans) :
    ∃ value behind, Text.words span.label = (Marker.extractWord ++ value) :: behind := by
  obtain ⟨rest, hlabel⟩ := (isBare_label hspan).1
  have htight : Marker.extractWord.Tight := by decide
  rw [← hlabel]
  exact Text.exists_words_append (List.cons_ne_nil _ _) htight rest

end Partials.Scan

namespace Partials.Block

open Directives

/-- An annotation of a document holds no end of a comment. The first of its directives is `extract`,
whose value is one text: the whole of what the last word that starts with `extract:` says. Under all
options, the block is reported for a missing destination exactly if that word says nothing and
nothing but another directive follows it; in all other cases what it says is the destination. -/
theorem extract_of_mem_spans {policy : Policy} {t : Text} {span : Span}
    (hspan : span ∈ (Scan.ofText policy t).spans) :
    ¬ Marker.commentEnd <:+: span.label ∧
    (∃ front value behind, LastExtract (Text.words span.label) front value behind) ∧
    ∀ front value behind, LastExtract (Text.words span.label) front value behind →
      ∃ written rest,
        (parse span.label).entries = (extractKey, .text written) :: rest ∧
        Says value behind written ∧
        (∀ o p origin line, Processor.ofOptions o = .ok p →
          (ofSpan p span origin = .error (.missingDestination line) ↔
            SaysNothing value behind ∧ line = span.startLine)) ∧
        (¬ SaysNothing value behind → (parse span.label).destination? = some written) := by
  obtain ⟨first, others, hfirst⟩ := Scan.exists_words_label hspan
  have hwords := Scan.words_body_label hspan
  refine ⟨Scan.not_commentEnd_isInfix_label hspan, ?_, ?_⟩
  · apply exists_lastExtract
    rw [hfirst]
    exact ⟨_, List.mem_cons_self, List.prefix_append _ _⟩
  · intro front value behind hlast
    obtain ⟨written, hsays, hget⟩ := exists_says_of_lastExtract (hwords.symm ▸ hlast)
    obtain ⟨rest, hentries⟩ := entries_parse_eq_cons (hwords.trans hfirst) hget
    have hnil : written = [] ↔ SaysNothing value behind := by
      apply hsays.eq_nil_iff
      intro word hword
      apply Text.ne_nil_of_mem_words (t := span.label)
      rw [hlast.words_eq]
      exact List.mem_append_right _ (List.mem_cons_of_mem _ hword)
    refine ⟨written, rest, hentries, hsays, ?_, ?_⟩
    · intro o p origin line _
      rw [ofSpan_eq_missingDestination_iff, destination?_eq_none_iff hget, hnil]
    · intro hsomething
      exact destination?_eq_some_iff.mpr ⟨hget, mt hnil.mp hsomething⟩

/-- Annotations with two words for `extract`: the second holds a colon, or nothing before another
directive. -/
def twoRepeats : Text :=
  "<!--\textract:a name:A\nextract:c:/b.html x-->1<!-- endextract --> ".toList ++
    "<!-- extract:a\u3000extract: name:B -->2<!-- endextract -->".toList

def overridden : Span := ⟨"extract:a name:A\nextract:c:/b.html x".toList, ['1'], 1, 2, true⟩

def emptied : Span := ⟨"extract:a\u3000extract: name:B".toList, ['2'], 2, 2, true⟩

theorem extract_of_mem_spans_twoRepeats :
    (Scan.ofText .discard twoRepeats).spans = [overridden, emptied] ∧
      (parse overridden.label).destination? = some "c:/b.html".toList ∧
      ofSpan ⟨{}, Wrap.Pair.empty⟩ emptied [] = .error (.missingDestination 2) := by
  have hspans : (Scan.ofText .discard twoRepeats).spans = [overridden, emptied] := by
    decide +kernel
  refine ⟨hspans, ?_, ?_⟩
  · have hmem : overridden ∈ (Scan.ofText .discard twoRepeats).spans := by simp [hspans]
    have hlast : LastExtract (Text.words overridden.label) ["extract:a".toList, "name:A".toList]
        "c:/b.html".toList [['x']] := ⟨by decide +kernel, by decide⟩
    obtain ⟨-, -, hextract⟩ := extract_of_mem_spans hmem
    obtain ⟨written, rest, -, hsays, -, hdestination⟩ := hextract _ _ _ hlast
    have hsomething : ¬ SaysNothing "c:/b.html".toList [['x']] :=
      fun hnothing => List.cons_ne_nil _ _ hnothing.1
    rw [hdestination hsomething]
    cases hsays with
    | own => rfl
    | nothing hnothing => exact absurd hnothing hsomething
  · have hmem : emptied ∈ (Scan.ofText .discard twoRepeats).spans := by simp [hspans]
    have hlast : LastExtract (Text.words emptied.label) ["extract:a".toList] []
        ["name:B".toList] := ⟨by decide +kernel, by decide⟩
    have hnothing : SaysNothing [] ["name:B".toList] := by
      refine ⟨rfl, fun word hword => ⟨"name".toList, ['B'], by decide, ?_⟩⟩
      exact (Option.some.inj hword).symm
    obtain ⟨-, -, hextract⟩ := extract_of_mem_spans hmem
    obtain ⟨-, -, -, -, hmissing, -⟩ := hextract _ _ _ hlast
    have hwrap : Processor.ofOptions {} = .ok ⟨{}, Wrap.Pair.empty⟩ := by decide +kernel
    exact (hmissing _ _ [] 2 hwrap).mpr ⟨hnothing, rfl⟩

end Partials.Block
