import Mathlib.Data.List.Infix
import Partials.Proofs.Directives.RoundTrip

/-!
# Annotations one behind the other

What stands behind an annotation that leaves no key pending overrides it: the entries of the second
annotation are set in the map of the first, one after the other (`parse_append_eq_insertAll`). With
a single directive that is one insertion (`parse_append_directive`).
-/

namespace Partials.Directives

theorem Word.leaves?_eq_some_iff {word : Word} {key : Text} :
    word.leaves? = some key ↔ word = .directive key [] := by
  constructor
  · intro h
    match word, h with
    | .directive _ [], rfl => rfl
  · rintro rfl
    rfl

theorem leftBy_eq_some_iff {words : List Word} {key : Text} :
    leftBy none words = some key ↔ words.getLast? = some (.directive key []) := by
  have hleft : leftBy none words = words.getLast?.bind Word.leaves? := by
    induction words using List.reverseRecOn with
    | nil => rfl
    | append_singleton words word _ => simp [leftBy]
  simp only [hleft, Option.bind_eq_some_iff, Word.leaves?_eq_some_iff, exists_eq_right]

theorem leftBy_eq_none_iff {words : List Word} :
    leftBy none words = none ↔ ∀ key, words.getLast? ≠ some (.directive key []) := by
  simp only [Option.eq_none_iff_forall_ne_some, ne_eq, leftBy_eq_some_iff]

/-- The key that an annotation leaves pending is that of its last word, which has no value. -/
theorem leftBy_words_eq_some_iff {label key : Text} :
    leftBy none ((Text.words label).map Word.ofText) = some key ↔
      IsKey key ∧ (Text.words label).getLast? = some (key ++ [':']) := by
  rw [leftBy_eq_some_iff, List.getLast?_map]
  constructor
  · intro h
    obtain ⟨t, hlast, hword⟩ := Option.map_eq_some_iff.mp h
    rcases Word.ofText_cases t with ⟨key', value, hkey, hcut, hdirective⟩ | hbare
    · rw [hdirective] at hword
      obtain ⟨rfl, rfl⟩ := Word.directive.inj hword
      exact ⟨hkey, hlast.trans (congrArg some hcut)⟩
    · rw [hbare] at hword
      cases hword
  · rintro ⟨hkey, hlast⟩
    rw [hlast, Option.map_some, Word.ofText_append_cons hkey]

theorem parse_of_not_isPrefix {label : Text} (hstart : ¬ Marker.commentStart <+: Text.trim label)
    (hend : ¬ Marker.commentEnd <:+: label) :
    parse label = empty.insertAll (readings none ((Text.words label).map Word.ofText)) := by
  rw [parse, body_eq_trim hstart hend, Text.trim, Text.words_trimEnd, Text.words_trimStart,
    readWords_eq_insertAll]
  rfl

/-- Behind a blank, words are read with the key that the words in front leave pending. -/
theorem insertAll_readings_words (front behind : Text) :
    empty.insertAll (readings none ((Text.words (front ++ ' ' :: behind)).map Word.ofText)) =
      (empty.insertAll (readings none ((Text.words front).map Word.ofText))).insertAll
        (readings (leftBy none ((Text.words front).map Word.ofText))
          ((Text.words behind).map Word.ofText)) := by
  rw [Text.words_append_cons (by rfl), List.map_append, readings_append, insertAll_append]

section

variable {label key value : Text}

/-- What is added behind an annotation does not make it start with a comment. -/
theorem not_isPrefix_trim_append (hkey : IsKey key)
    (hstart : ¬ Marker.commentStart <:+: label) :
    ¬ Marker.commentStart <+: Text.trim (label ++ ' ' :: (key ++ ':' :: value)) := by
  intro hprefix
  have hprefix := hprefix.trans (Text.dropEndWhile_isPrefix _ _)
  rw [Text.trimStart, List.dropWhile_append] at hprefix
  split at hprefix
  · obtain ⟨c, cs, rfl⟩ := List.exists_cons_of_ne_nil hkey.1
    have hc := hkey.2 c List.mem_cons_self
    have hblank : isBlank c = false := isBlank_of_isKeyChar hc
    rw [List.cons_append, List.dropWhile_cons_of_pos (by rfl),
      List.dropWhile_cons_of_neg (by simp [hblank])] at hprefix
    obtain rfl := (List.cons_prefix_cons.mp hprefix).1
    exact absurd hc (by decide)
  · have hlabel := Text.isPrefix_of_isPrefix_append_cons (by decide) hprefix
    exact hstart (hlabel.isInfix.trans (List.dropWhile_suffix _).isInfix)

/-- Behind an annotation that leaves no key pending, a directive is an insertion. -/
theorem parse_append_directive (hkey : IsKey key) (hvalue : value.Tight)
    (hstart : ¬ Marker.commentStart <:+: label) (hend : ¬ Marker.commentEnd <:+: label)
    (hvalueEnd : ¬ Marker.commentEnd <:+: value)
    (hlast : ∀ key, ((Text.words label).map Word.ofText).getLast? ≠ some (.directive key [])) :
    parse (label ++ ' ' :: (key ++ ':' :: value)) =
      (parse label).insert key (valueOf key value) := by
  have hlabelStart : ¬ Marker.commentStart <+: Text.trim label :=
    fun h => hstart (h.isInfix.trans (Text.trim_isInfix label))
  have hwholeEnd : ¬ Marker.commentEnd <:+: label ++ ' ' :: (key ++ ':' :: value) := by
    intro h
    rcases Text.isInfix_append_cons (by decide) h with h | h
    · exact hend h
    · exact hvalueEnd (commentEnd_isInfix_of_directive hkey h)
  have hword : Text.words (key ++ ':' :: value) = [key ++ ':' :: value] :=
    Text.words_of_tight (List.append_ne_nil_of_left_ne_nil hkey.1 _) (tight_directive hkey hvalue)
  rw [parse_of_not_isPrefix (not_isPrefix_trim_append hkey hstart) hwholeEnd,
    parse_of_not_isPrefix hlabelStart hend, insertAll_readings_words,
    leftBy_eq_none_iff.mpr hlast, hword, List.map_singleton, Word.ofText_append_cons hkey]
  rfl

end

/-- No comment starts or ends in the text. -/
structure Undelimited (t : Text) : Prop where
  start : ¬ Marker.commentStart <:+: t
  stop : ¬ Marker.commentEnd <:+: t

instance (t : Text) : Decidable (Undelimited t) :=
  decidable_of_iff (¬ Marker.commentStart <:+: t ∧ ¬ Marker.commentEnd <:+: t)
    ⟨fun ⟨hstart, hstop⟩ => ⟨hstart, hstop⟩, fun h => ⟨h.start, h.stop⟩⟩

section

variable {a b key : Text}

theorem Undelimited.append (ha : Undelimited a) (hb : Undelimited b) :
    Undelimited (a ++ ' ' :: b) where
  start := by
    intro h
    rcases Text.isInfix_append_cons (by decide) h with h | h
    · exact ha.start h
    · exact hb.start h
  stop := by
    intro h
    rcases Text.isInfix_append_cons (by decide) h with h | h
    · exact ha.stop h
    · exact hb.stop h

theorem undelimited_pending (hkey : IsKey key) : Undelimited (key ++ [':']) where
  start := by
    intro h
    rcases List.mem_append.mp (h.subset (List.mem_cons_self (a := '<'))) with hmem | hmem
    · exact absurd (hkey.2 _ hmem) (by decide)
    · exact absurd hmem (by decide)
  stop := by
    intro h
    have hsign : '>' ∈ key ++ [':'] := h.subset (by decide)
    rcases List.mem_append.mp hsign with hmem | hmem
    · exact absurd (hkey.2 _ hmem) (by decide)
    · exact absurd hmem (by decide)

theorem Undelimited.parse_eq (ha : Undelimited a) :
    parse a = empty.insertAll (readings none ((Text.words a).map Word.ofText)) :=
  parse_of_not_isPrefix (fun h => ha.start (h.isInfix.trans (Text.trim_isInfix a))) ha.stop

theorem Undelimited.parse_append (ha : Undelimited a) (hb : Undelimited b) :
    parse (a ++ ' ' :: b) = (parse a).insertAll
      (readings (leftBy none ((Text.words a).map Word.ofText)) ((Text.words b).map Word.ofText)) := by
  rw [(ha.append hb).parse_eq, insertAll_readings_words, ← ha.parse_eq]

/-- A key that is left pending has the empty value at the end of its annotation. -/
theorem Undelimited.get?_parse_of_pending (ha : Undelimited a)
    (hlast : leftBy none ((Text.words a).map Word.ofText) = some key) :
    (parse a).get? key = some (.text []) := by
  obtain ⟨front, hwords⟩ := List.getLast?_eq_some_iff.mp (leftBy_eq_some_iff.mp hlast)
  have hreadings : readings none ((Text.words a).map Word.ofText) =
      readings none front ++ [(key, .text [])] := by
    rw [hwords, readings_append, ← valueOf_nil key]
    rfl
  rw [ha.parse_eq, hreadings]
  exact get?_insertAll_append_cons empty _ List.not_mem_nil (.text [])

/-- Behind a pending key, an annotation is read as it is read behind this key alone. -/
theorem Undelimited.parse_append_of_pending (ha : Undelimited a) (hb : Undelimited b)
    (hkey : IsKey key) (hlast : leftBy none ((Text.words a).map Word.ofText) = some key) :
    parse (a ++ ' ' :: b) = (parse a).insertAll (parse (key ++ ':' :: ' ' :: b)).entries := by
  have hpending : Undelimited (key ++ [':']) := undelimited_pending hkey
  have hword : (Text.words (key ++ [':'])).map Word.ofText = [.directive key []] := by
    rw [Text.words_of_tight (List.append_ne_nil_of_left_ne_nil hkey.1 _)
      (tight_directive hkey (by intro c hc; cases hc)), List.map_singleton,
      Word.ofText_append_cons hkey]
  have hbehind : parse (key ++ ':' :: ' ' :: b) = empty.insertAll ((key, .text []) ::
      readings (some key) ((Text.words b).map Word.ofText)) := by
    have happend := hpending.parse_append hb
    rw [hpending.parse_eq, hword, ← insertAll_append, List.append_assoc] at happend
    exact happend.trans (by rw [← valueOf_nil key]; rfl)
  rw [ha.parse_append hb, hlast, hbehind, insertAll_entries_insertAll]
  -- The key sets the empty value, which it has at the end of the first annotation.
  change _ = ((parse a).insert key (.text [])).insertAll _
  rw [insert_of_get? (ha.get?_parse_of_pending hlast)]

/-- An annotation overrides the one in front of it. Where that one leaves no key pending, the
entries of the second are set in the map of the first, one after the other: a present key is
replaced in place, and new ones follow in their order. Where it leaves a key pending, the second is
read as it is read behind this key alone. -/
theorem parse_append_eq_insertAll (ha : Undelimited a) (hb : Undelimited b) :
    ((∀ key, IsKey key → (Text.words a).getLast? ≠ some (key ++ [':'])) →
      parse (a ++ ' ' :: b) = (parse a).insertAll (parse b).entries ∧
      (parse (a ++ ' ' :: b)).keys =
        (parse a).keys ++ (parse b).keys.filter (· ∉ (parse a).keys) ∧
      ∀ key, (parse (a ++ ' ' :: b)).get? key = ((parse b).get? key).or ((parse a).get? key)) ∧
    ∀ key, IsKey key → (Text.words a).getLast? = some (key ++ [':']) →
      parse (a ++ ' ' :: b) = (parse a).insertAll (parse (key ++ ':' :: ' ' :: b)).entries := by
  constructor
  · intro hlast
    have hnone : leftBy none ((Text.words a).map Word.ofText) = none := by
      rw [Option.eq_none_iff_forall_ne_some]
      intro key hkey
      obtain ⟨hiskey, hword⟩ := leftBy_words_eq_some_iff.mp hkey
      exact hlast key hiskey hword
    have hparse : parse (a ++ ' ' :: b) = (parse a).insertAll (parse b).entries := by
      rw [ha.parse_append hb, hnone, hb.parse_eq, insertAll_entries_insertAll]
    refine ⟨hparse, ?_, ?_⟩
    · rw [hparse]
      exact keys_insertAll _ (nodup_keys_parse b)
    · intro key
      rw [hparse]
      exact get?_insertAll _ (nodup_keys_parse b) key
  · intro key hkey hword
    exact ha.parse_append_of_pending hb hkey (leftBy_words_eq_some_iff.mpr ⟨hkey, hword⟩)

end

/-- A bare word, a key that is set twice with an empty one between, and an empty key at the end. -/
def overridingLabel : Text := "x name:Two brand: name:Three wrap:".toList

theorem parse_append_eq_insertAll_overriding :
    Undelimited "wrap:b name:One extract: a".toList ∧ Undelimited overridingLabel ∧
      parse ("wrap:b name:One extract: a".toList ++ ' ' :: overridingLabel) =
        ⟨[("wrap".toList, .text []), ("name".toList, .text "Three".toList), (extractKey, .text ['a']),
          ("brand".toList, .text [])]⟩ ∧
      parse ("name:One extract:".toList ++ ' ' :: overridingLabel) =
        (parse "name:One extract:".toList).insertAll
          (parse (extractKey ++ ':' :: ' ' :: overridingLabel)).entries := by
  have hfront : Undelimited "wrap:b name:One extract: a".toList := by decide +kernel
  have hpending : Undelimited "name:One extract:".toList := by decide +kernel
  have hbehind : Undelimited overridingLabel := by decide +kernel
  have hword : (Text.words "wrap:b name:One extract: a".toList).getLast? = some ['a'] := by
    decide +kernel
  refine ⟨hfront, hbehind, ?_, ?_⟩
  · have hset := (parse_append_eq_insertAll hfront hbehind).1 (by
      intro key _ hlast
      have hcolon : [':'] <:+ ['a'] := Option.some.inj (hword.symm.trans hlast) ▸ ⟨key, rfl⟩
      exact absurd hcolon (by decide))
    rw [hset.1]
    decide +kernel
  · exact (parse_append_eq_insertAll hpending hbehind).2 extractKey (by decide) (by decide +kernel)

end Partials.Directives
