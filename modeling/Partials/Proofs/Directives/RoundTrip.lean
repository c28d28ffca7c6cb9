import Partials.Proofs.Directives.Insertions
import Partials.Proofs.Scan.Grammar

/-!
# Directives as the text of an annotation

An annotation gives a well-formed map: no key stands twice, a destination is one text, and what
else holds a colon is a list. A well-formed map is what its own text says, unless that text ends a
comment. Reading and printing are therefore inverse to each other (`parse_print_inverse`).
-/

namespace Partials.Directives

/-- An annotation can give the value to the key. -/
def Takes (key : Text) : Value → Prop
  | .text t => t.Tight ∧ (key ≠ extractKey → Value.separator ∉ t)
  | .list items =>
    key ≠ extractKey ∧ 2 ≤ items.length ∧ ∀ item ∈ items, item.Tight ∧ Value.separator ∉ item
  | .wrap _ => False

/-- An annotation can give the map. -/
structure WellFormed (d : Directives) : Prop where
  nodup : d.keys.Nodup
  isKey : ∀ key ∈ d.keys, IsKey key
  takes : ∀ entry ∈ d.entries, Takes entry.1 entry.2

instance (key : Text) : (value : Value) → Decidable (Takes key value)
  | .text _ => inferInstanceAs (Decidable (_ ∧ _))
  | .list _ => inferInstanceAs (Decidable (_ ∧ _))
  | .wrap _ => inferInstanceAs (Decidable False)

instance (d : Directives) : Decidable d.WellFormed :=
  decidable_of_iff
    (d.keys.Nodup ∧ (∀ key ∈ d.keys, IsKey key) ∧ ∀ entry ∈ d.entries, Takes entry.1 entry.2)
    ⟨fun ⟨hnodup, hkeys, htakes⟩ => ⟨hnodup, hkeys, htakes⟩,
      fun h => ⟨h.nodup, h.isKey, h.takes⟩⟩

section

variable {key t : Text}

theorem takes_valueOf (ht : t.Tight) : Takes key (valueOf key t) := by
  unfold valueOf
  split
  · next hlist =>
    refine ⟨hlist.1, ?_, fun item hitem => ⟨?_, Text.not_mem_of_mem_split hitem⟩⟩
    · obtain ⟨front, behind, rfl⟩ := List.append_of_mem hlist.2
      have hfront : Text.split Value.separator front ≠ [] := Text.splitWhere_ne_nil _ _
      have hbehind : Text.split Value.separator behind ≠ [] := Text.splitWhere_ne_nil _ _
      have hfront := List.length_pos_of_ne_nil hfront
      have hbehind := List.length_pos_of_ne_nil hbehind
      rw [Text.split_append_cons, List.length_append]
      omega
    · intro c hc
      exact ht c (Text.mem_of_mem_split hitem hc)
  · next hnot => exact ⟨ht, fun hkey hmem => hnot ⟨hkey, hmem⟩⟩

theorem asText?_valueOf (key t : Text) : (valueOf key t).asText? = some t := by
  unfold valueOf
  split
  · exact congrArg some (Text.join_split _ _)
  · rfl

/-- What a key takes is the reading of its own text. -/
theorem Takes.exists_text {value : Value} (h : Takes key value) :
    ∃ t : Text, t.Tight ∧ value.asText? = some t ∧ valueOf key t = value := by
  cases value with
  | text t => exact ⟨t, h.1, rfl, if_neg fun hlist => h.2 hlist.1 hlist.2⟩
  | list items =>
      obtain ⟨hkey, hlength, hitems⟩ := h
      have hmem : Value.separator ∈ Text.join [Value.separator] items := by
        match items, hlength with
        | first :: next :: rest, _ =>
          exact List.mem_append_left _ (List.mem_append_right _ List.mem_cons_self)
      refine ⟨Text.join [Value.separator] items, ?_, rfl, ?_⟩
      · intro c hc
        rcases Text.mem_or_mem_of_mem_join hc with hc | ⟨item, hitem, hc⟩
        · obtain rfl := List.mem_singleton.mp hc
          rfl
        · exact (hitems item hitem).1 c hc
      · rw [valueOf, if_pos ⟨hkey, hmem⟩,
          Text.split_join (List.ne_nil_of_length_pos (by omega)) fun item hitem =>
            (hitems item hitem).2]
  | wrap pair => exact h.elim

end

/-- Every annotation gives a well-formed map. -/
theorem wellFormed_parse (label : Text) : (parse label).WellFormed where
  nodup := nodup_keys_parse label
  isKey := by
    intro key hkey
    obtain ⟨entry, hentry, rfl⟩ := List.mem_map.mp hkey
    exact (isRead_of_mem_parse entry hentry).1
  takes := by
    intro entry hentry
    obtain ⟨-, t, ht, hvalue⟩ := isRead_of_mem_parse entry hentry
    rw [hvalue]
    exact takes_valueOf ht

theorem tight_directive {key t : Text} (hkey : IsKey key) (ht : t.Tight) :
    Text.Tight (key ++ ':' :: t) := by
  intro c hc
  rcases List.mem_append.mp hc with hc | hc
  · exact isBlank_of_isKeyChar (hkey.2 c hc)
  · rcases List.mem_cons.mp hc with rfl | hc
    · rfl
    · exact ht c hc

/-- A comment that ends in a directive ends in its value. -/
theorem commentEnd_isInfix_of_directive {key t : Text} (hkey : IsKey key)
    (h : Marker.commentEnd <:+: key ++ ':' :: t) : Marker.commentEnd <:+: t := by
  rcases Text.isInfix_append_cons (by decide) h with h | h
  · have hgreater : '>' ∈ key := h.subset (by decide)
    exact absurd (hkey.2 _ hgreater) (by decide)
  · exact h

theorem Word.ofText_append_cons {key : Text} (hkey : IsKey key) (value : Text) :
    Word.ofText (key ++ ':' :: value) = .directive key value := by
  obtain ⟨hne, hchars⟩ := hkey
  obtain ⟨c, cs, rfl⟩ := List.exists_cons_of_ne_nil hne
  have htake : ((c :: cs) ++ ':' :: value).takeWhile isKeyChar = c :: cs := by
    rw [List.takeWhile_append_of_pos hchars]
    exact List.append_nil _
  have hdrop : ((c :: cs) ++ ':' :: value).dropWhile isKeyChar = ':' :: value := by
    rw [List.dropWhile_append_of_pos hchars]
    rfl
  unfold Word.ofText
  rw [htake, hdrop]
  rfl

/-- Each directive sets its own entry. -/
theorem readings_directives (pending : Option Text) (pairs : List (Text × Text)) :
    readings pending (pairs.map fun (key, t) => .directive key t) =
      pairs.map fun (key, t) => (key, valueOf key t) := by
  induction pairs generalizing pending with
  | nil => rfl
  | cons pair pairs ih => exact congrArg (_ :: ·) (ih _)

/-- The map as pairs of keys and texts. -/
def pairs (d : Directives) : List (Text × Text) :=
  d.entries.map fun (key, value) => (key, value.asText?.getD [])

theorem print_eq_join (d : Directives) :
    d.print = Text.join [' '] (d.pairs.map fun (key, t) => key ++ ':' :: t) := by
  rw [pairs, List.map_map]
  rfl

theorem keys_pairs (d : Directives) : d.pairs.map Prod.fst = d.keys := by
  rw [pairs, List.map_map]
  rfl

theorem body_isInfix (label : Text) : body label <:+: label := by
  have hstart : ∀ t : Text, (Text.after? Marker.commentStart t).getD t <:+: t := by
    intro t
    cases h : Text.after? Marker.commentStart t with
    | none => exact List.infix_refl t
    | some rest => exact ⟨Marker.commentStart, [], by rw [Text.after?_eq_some_iff.mp h]; simp⟩
  have hend : ∀ t : Text, (Text.before? Marker.commentEnd t).getD t <:+: t := by
    intro t
    cases h : Text.before? Marker.commentEnd t with
    | none => exact List.infix_refl t
    | some front => exact ⟨[], Marker.commentEnd, by rw [eq_append_of_before? h]; simp⟩
  exact (hend _).trans ((hstart _).trans (Text.trim_isInfix label))

theorem parse_of_words {t : Text} {d : Directives} (hnodup : d.keys.Nodup)
    (hwords : (Text.words (body t)).map Word.ofText =
      d.pairs.map fun (key, t) => .directive key t) :
    parse t = ⟨d.pairs.map fun (key, t) => (key, valueOf key t)⟩ := by
  have hkeys : (d.pairs.map fun (key, t) => (key, valueOf key t)).map Prod.fst = d.keys := by
    rw [List.map_map, ← keys_pairs]
    rfl
  rw [parse, hwords, readWords_eq_insertAll, readings_directives]
  apply insertAll_of_nodup
  rw [hkeys]
  exact hnodup

namespace WellFormed

variable {d : Directives}

theorem of_mem_pairs (h : d.WellFormed) {key t : Text} (hpair : (key, t) ∈ d.pairs) :
    IsKey key ∧ t.Tight := by
  obtain ⟨⟨key, value⟩, hentry, heq⟩ := List.mem_map.mp hpair
  obtain ⟨rfl, rfl⟩ := Prod.mk.inj heq
  obtain ⟨t, ht, htext, -⟩ := (h.takes _ hentry).exists_text
  refine ⟨h.isKey key (List.mem_map_of_mem hentry), ?_⟩
  dsimp only at htext ⊢
  rw [htext]
  exact ht

/-- Each entry is the reading of its text. -/
theorem entries_eq (h : d.WellFormed) :
    d.pairs.map (fun (key, t) => (key, valueOf key t)) = d.entries := by
  rw [pairs, List.map_map]
  refine (List.map_congr_left ?_).trans (List.map_id _)
  rintro ⟨key, value⟩ hentry
  obtain ⟨t, -, htext, hvalue⟩ := (h.takes _ hentry).exists_text
  dsimp only [Function.comp_apply] at htext hvalue ⊢
  rw [htext, Option.getD_some, hvalue]
  rfl

/-- The words of the map's text are its entries. -/
theorem words_print (h : d.WellFormed) :
    Text.words d.print = d.pairs.map fun (key, t) => key ++ ':' :: t := by
  rw [print_eq_join]
  apply Text.words_join rfl
  intro piece hpiece
  obtain ⟨⟨key, t⟩, hpair, rfl⟩ := List.mem_map.mp hpiece
  obtain ⟨hkey, ht⟩ := h.of_mem_pairs hpair
  exact ⟨List.append_ne_nil_of_left_ne_nil hkey.1 _, tight_directive hkey ht⟩

theorem print_eq_nil_or (h : d.WellFormed) :
    d.print = [] ∨ ∃ c cs, d.print = c :: cs ∧ isKeyChar c = true := by
  rw [print_eq_join]
  cases hpairs : d.pairs with
  | nil => exact .inl rfl
  | cons pair pairs =>
      obtain ⟨key, t⟩ := pair
      have hpair : (key, t) ∈ d.pairs := hpairs ▸ List.mem_cons_self
      obtain ⟨⟨hne, hchars⟩, -⟩ := h.of_mem_pairs hpair
      obtain ⟨c, cs, rfl⟩ := List.exists_cons_of_ne_nil hne
      have hc : isKeyChar c = true := hchars c List.mem_cons_self
      cases pairs with
      | nil => exact .inr ⟨c, _, rfl, hc⟩
      | cons next rest => exact .inr ⟨c, _, rfl, hc⟩

/-- The map's text starts with a key, so it starts no comment. -/
theorem not_commentStart_isPrefix (h : d.WellFormed) :
    ¬ Marker.commentStart <+: Text.trim d.print := by
  intro hstart
  rcases h.print_eq_nil_or with hprint | ⟨c, cs, hprint, hc⟩
  · rw [hprint] at hstart
    exact absurd hstart (by decide)
  · have hblank : isBlank c = false := isBlank_of_isKeyChar hc
    have htrim : Text.trim d.print <+: c :: cs := by
      rw [Text.trim, Text.trimStart, hprint, List.dropWhile_cons, hblank]
      exact Text.dropEndWhile_isPrefix _ _
    obtain ⟨rfl, -⟩ := List.cons_prefix_cons.mp (hstart.trans htrim)
    exact absurd hc (by decide)

theorem parse_print (h : d.WellFormed) (hend : ¬ Marker.commentEnd <:+: d.print) :
    parse d.print = d := by
  have hwords : (Text.words (body d.print)).map Word.ofText =
      d.pairs.map fun (key, t) => .directive key t := by
    rw [body_eq_trim h.not_commentStart_isPrefix hend, Text.trim, Text.words_trimEnd,
      Text.words_trimStart, h.words_print, List.map_map]
    refine List.map_congr_left ?_
    rintro ⟨key, t⟩ hpair
    exact Word.ofText_append_cons (h.of_mem_pairs hpair).1 t
  rw [parse_of_words h.nodup hwords, h.entries_eq]

end WellFormed

/-- What has no comment end in it is printed without one. -/
theorem not_commentEnd_isInfix_print {label : Text} (hlabel : ¬ Marker.commentEnd <:+: label) :
    ¬ Marker.commentEnd <:+: (parse label).print := by
  have hread : ∀ entry ∈ (parse label).entries,
      IsRead (fun t => ¬ Marker.commentEnd <:+: t) entry := by
    apply isRead_of_mem_parse_of_words
    · decide
    · intro s t hst ht hs
      exact ht (hs.trans hst.isInfix)
    · intro word hword h
      exact hlabel (h.trans ((Text.isInfix_of_mem_words hword).trans (body_isInfix label)))
  intro h
  obtain ⟨piece, hpiece, h⟩ :=
    Text.exists_isInfix_of_isInfix_join (by decide) (c := ' ') (by decide) h
  obtain ⟨⟨key, value⟩, hentry, rfl⟩ := List.mem_map.mp hpiece
  obtain ⟨hkey, t, ht, hvalue⟩ := hread _ hentry
  dsimp only at hkey hvalue h
  rw [hvalue, asText?_valueOf, Option.getD_some] at h
  exact ht (commentEnd_isInfix_of_directive hkey h)

/-- Annotations give well-formed maps. A well-formed map is what its own text says, unless a comment
ends in that text. So what an annotation without a comment's end gives is read from its own text
again, and no annotation of a document has one. -/
theorem parse_print_inverse :
    (∀ label : Text, (parse label).WellFormed) ∧
      (∀ d : Directives, d.WellFormed → ¬ Marker.commentEnd <:+: d.print → parse d.print = d) ∧
      (∀ label : Text, ¬ Marker.commentEnd <:+: label →
        parse (parse label).print = parse label) ∧
      ∀ (policy : Policy) (t : Text), ∀ span ∈ (Scan.ofText policy t).spans,
        ¬ Marker.commentEnd <:+: span.label := by
  refine ⟨wellFormed_parse, fun d h hend => h.parse_print hend, ?_, ?_⟩
  · intro label hlabel
    exact (wellFormed_parse label).parse_print (not_commentEnd_isInfix_print hlabel)
  · intro policy t span hspan
    exact Scan.not_commentEnd_isInfix_label hspan

/-- An annotation with a key that a directive leaves empty, a repeated key, a bare word, a list and
a key at its end. -/
def mixedLabel : Text := "extract: a:b name:A x brand: tags::c name:".toList

/-- A destination with a colon, a list with an empty part and an empty value. -/
def mixedMap : Directives :=
  ⟨[(extractKey, .text "c:/a.html".toList), ("tags".toList, .list [[], ['c']]),
    ("name".toList, .text [])]⟩

theorem parse_print_inverse_mixed :
    (parse mixedLabel).WellFormed ∧ parse (parse mixedLabel).print = parse mixedLabel ∧
      mixedMap.print = "extract:c:/a.html tags::c name:".toList ∧
      parse "extract:c:/a.html tags::c name:".toList = mixedMap := by
  obtain ⟨hwell, hread, hagain, -⟩ := parse_print_inverse
  have hlabel : ¬ Marker.commentEnd <:+: mixedLabel := by decide +kernel
  have hprint : mixedMap.print = "extract:c:/a.html tags::c name:".toList := by decide +kernel
  refine ⟨hwell mixedLabel, hagain mixedLabel hlabel, hprint, ?_⟩
  rw [← hprint]
  exact hread mixedMap (by decide +kernel) (by decide +kernel)

end Partials.Directives
