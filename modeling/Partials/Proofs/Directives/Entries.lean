import Partials.Directives.Words
import Partials.Proofs.Text.Words

/-!
# The entries of an annotation

Whatever an annotation says, each entry of its directives is a key in the alphabet of keys with the
reading of a part of one word: `isRead_of_mem_parse_of_words`. The blanks between its words say
nothing: `parse_trim_eq_of_words_eq`.
-/

namespace Partials.Directives

/-- A key that an annotation can set. -/
def IsKey (key : Text) : Prop := key ≠ [] ∧ ∀ c ∈ key, isKeyChar c = true

-- The search for an instance may come upon one that goes through all characters there are.
instance (key : Text) : Decidable (IsKey key) :=
  @instDecidableAnd _ _ inferInstance (List.decidableBAll (isKeyChar · = true) key)

theorem code_of_between {c : Char} {low high : UInt32} (hlow : low ≤ c.val)
    (hhigh : c.val ≤ high) : low.toNat ≤ c.toNat ∧ c.toNat ≤ high.toNat :=
  ⟨UInt32.le_iff_toNat_le.mp hlow, UInt32.le_iff_toNat_le.mp hhigh⟩

theorem code_of_isKeyChar {c : Char} (h : isKeyChar c = true) :
    45 ≤ c.toNat ∧ c.toNat ≤ 122 := by
  change ((((c.isUpper || c.isLower) || c.isDigit) || c == '_') || c == '-') = true at h
  rw [Bool.or_eq_true, Bool.or_eq_true, Bool.or_eq_true, Bool.or_eq_true, beq_iff_eq,
    beq_iff_eq] at h
  rcases h with (((hupper | hlower) | hdigit) | rfl) | rfl
  · obtain ⟨hlow, hhigh⟩ := of_decide_eq_true hupper
    have hcode : 65 ≤ c.toNat ∧ c.toNat ≤ 90 := code_of_between hlow hhigh
    omega
  · obtain ⟨hlow, hhigh⟩ := Bool.and_eq_true_iff.mp hlower
    have hcode : 97 ≤ c.toNat ∧ c.toNat ≤ 122 :=
      code_of_between (of_decide_eq_true hlow) (of_decide_eq_true hhigh)
    omega
  · obtain ⟨hlow, hhigh⟩ := Bool.and_eq_true_iff.mp hdigit
    have hcode : 48 ≤ c.toNat ∧ c.toNat ≤ 57 :=
      code_of_between (of_decide_eq_true hlow) (of_decide_eq_true hhigh)
    omega
  · decide
  · decide

theorem isBlank_of_isKeyChar {c : Char} (h : isKeyChar c = true) : isBlank c = false := by
  have hcode := code_of_isKeyChar h
  simp [isBlank]
  omega

/-- The entry has a key that an annotation can set, and the reading of a text of the kind `V`. -/
def IsRead (V : Text → Prop) (entry : Text × Value) : Prop :=
  IsKey entry.1 ∧ ∃ t : Text, V t ∧ entry.2 = valueOf entry.1 t

theorem eq_or_mem_of_mem_insertEntry {key : Text} {value : Value} {entries : List (Text × Value)}
    {entry : Text × Value} (h : entry ∈ insertEntry key value entries) :
    entry = (key, value) ∨ entry ∈ entries := by
  induction entries with
  | nil => exact .inl (List.mem_singleton.mp h)
  | cons first entries ih =>
      obtain ⟨k, v⟩ := first
      rw [insertEntry] at h
      split at h
      · next hk =>
        subst hk
        rcases List.mem_cons.mp h with rfl | h
        · exact .inl rfl
        · exact .inr (List.mem_cons_of_mem _ h)
      · rcases List.mem_cons.mp h with rfl | h
        · exact .inr List.mem_cons_self
        · rcases ih h with heq | h
          · exact .inl heq
          · exact .inr (List.mem_cons_of_mem _ h)

/-- All entries stay of a kind if the inserted one is. -/
theorem forall_mem_entries_insert {P : Text × Value → Prop} {d : Directives}
    (h : ∀ entry ∈ d.entries, P entry) {key : Text} {value : Value} (hnew : P (key, value)) :
    ∀ entry ∈ (d.insert key value).entries, P entry := by
  intro entry hentry
  rcases eq_or_mem_of_mem_insertEntry hentry with rfl | hentry
  · exact hnew
  · exact h entry hentry

theorem valueOf_nil (key : Text) : valueOf key [] = .text [] := by
  simp [valueOf]

/-- A word is bare unless it has a key before its first colon. -/
theorem Word.ofText_cases (t : Text) :
    (∃ key value, IsKey key ∧ t = key ++ ':' :: value ∧ Word.ofText t = .directive key value) ∨
      Word.ofText t = .bare t := by
  unfold Word.ofText
  split
  · next k key value hkey hvalue =>
    refine .inl ⟨k :: key, value, ⟨List.cons_ne_nil _ _, ?_⟩, ?_, rfl⟩
    · rw [← hkey]
      exact List.all_eq_true.mp List.all_takeWhile
    · rw [← hkey, ← hvalue, List.takeWhile_append_dropWhile]
  · exact .inr rfl

/-- The key of the word is one, and its other text is of the kind `V`. -/
def Word.Fits (V : Text → Prop) : Word → Prop
  | .directive key value => IsKey key ∧ V value
  | .bare t => V t

section

variable {V : Text → Prop}

theorem Word.fits_ofText (hsuffix : ∀ {s t : Text}, s <:+ t → V t → V s) {t : Text} (ht : V t) :
    (Word.ofText t).Fits V := by
  rcases Word.ofText_cases t with ⟨key, value, hkey, hcut, hword⟩ | hword
  · rw [hword]
    refine ⟨hkey, hsuffix ?_ ht⟩
    exact ⟨key ++ [':'], by rw [hcut, List.append_assoc, List.singleton_append]⟩
  · rw [hword]
    exact ht

theorem isRead_of_mem_flush (hnil : V []) {d : Directives} {pending : Option Text}
    (hd : ∀ entry ∈ d.entries, IsRead V entry) (hpending : ∀ key ∈ pending, IsKey key) :
    ∀ entry ∈ (d.flush pending).entries, IsRead V entry := by
  cases pending with
  | none => exact hd
  | some key =>
      exact forall_mem_entries_insert hd ⟨hpending key rfl, [], hnil, (valueOf_nil key).symm⟩

theorem isRead_of_mem_readWords (hnil : V []) {d : Directives} {pending : Option Text}
    {words : List Word} (hd : ∀ entry ∈ d.entries, IsRead V entry)
    (hpending : ∀ key ∈ pending, IsKey key) (hwords : ∀ word ∈ words, word.Fits V) :
    ∀ entry ∈ (d.readWords pending words).entries, IsRead V entry := by
  fun_induction readWords d pending words with
  | case1 d pending => exact isRead_of_mem_flush hnil hd hpending
  | case2 d pending key words ih =>
      have hkey : IsKey key := (hwords _ List.mem_cons_self).1
      refine ih (isRead_of_mem_flush hnil hd hpending) ?_
        fun word hword => hwords word (List.mem_cons_of_mem _ hword)
      rintro _ ⟨⟩
      exact hkey
  | case3 d pending key value words _ ih =>
      obtain ⟨hkey, hvalue⟩ := hwords _ List.mem_cons_self
      refine ih ?_ (by simp) fun word hword => hwords word (List.mem_cons_of_mem _ hword)
      exact forall_mem_entries_insert (isRead_of_mem_flush hnil hd hpending)
        ⟨hkey, value, hvalue, rfl⟩
  | case4 d key t words ih =>
      have ht : V t := hwords (.bare t) List.mem_cons_self
      refine ih ?_ (by simp) fun word hword => hwords word (List.mem_cons_of_mem _ hword)
      exact forall_mem_entries_insert hd ⟨hpending key rfl, t, ht, rfl⟩
  | case5 d t words ih =>
      exact ih hd (by simp) fun word hword => hwords word (List.mem_cons_of_mem _ hword)

/-- What the words of an annotation and their ends have in common, the texts of its values have. -/
theorem isRead_of_mem_parse_of_words {label : Text} (hnil : V [])
    (hsuffix : ∀ {s t : Text}, s <:+ t → V t → V s)
    (hwords : ∀ word ∈ Text.words (body label), V word) :
    ∀ entry ∈ (parse label).entries, IsRead V entry := by
  apply isRead_of_mem_readWords hnil
  · intro entry hentry
    cases hentry
  · intro key hkey
    cases hkey
  · intro word hword
    obtain ⟨t, ht, rfl⟩ := List.mem_map.mp hword
    exact Word.fits_ofText hsuffix (hwords t ht)

end

theorem isRead_of_mem_parse {label : Text} :
    ∀ entry ∈ (parse label).entries, IsRead Text.Tight entry := by
  apply isRead_of_mem_parse_of_words
  · intro c hc
    cases hc
  · intro s t hst ht c hc
    exact ht c (hst.subset hc)
  · intro word hword
    exact Text.tight_of_mem_words hword

theorem eq_append_of_before? {suf t front : Text} (h : Text.before? suf t = some front) :
    t = front ++ suf := by
  obtain ⟨rest, hrest, rfl⟩ := Option.map_eq_some_iff.mp h
  have hreverse := congrArg List.reverse (Text.after?_eq_some_iff.mp hrest)
  rwa [List.reverse_reverse, List.reverse_append, List.reverse_reverse] at hreverse

/-- A text that neither starts nor ends as a comment does only loses its blanks. -/
theorem body_eq_trim {t : Text} (hstart : ¬ Marker.commentStart <+: Text.trim t)
    (hend : ¬ Marker.commentEnd <:+: t) : body t = Text.trim t := by
  have hnostart : Text.after? Marker.commentStart (Text.trim t) = none := by
    rw [Option.eq_none_iff_forall_ne_some]
    intro rest hrest
    exact hstart ⟨rest, (Text.after?_eq_some_iff.mp hrest).symm⟩
  have hnoend : Text.before? Marker.commentEnd (Text.trim t) = none := by
    rw [Option.eq_none_iff_forall_ne_some]
    intro front hfront
    have htrim := Text.trim_isInfix t
    rw [eq_append_of_before? hfront] at htrim
    exact hend ((List.suffix_append front _).isInfix.trans htrim)
  rw [body, hnostart, Option.getD_none, hnoend, Option.getD_none]

section

variable {label label' : Text}

/-- The annotation starts with its word, and no comment ends in it. -/
def IsBare (label : Text) : Prop :=
  Marker.extractWord <+: label ∧ ¬ Marker.commentEnd <:+: label

/-- What starts like an annotation has no blanks in front. -/
theorem trimStart_of_isPrefix {t : Text} (ht : t <+: label) (h : IsBare label) :
    Text.trimStart t = t := by
  cases t with
  | nil => rfl
  | cons c cs =>
      obtain ⟨rest, rfl⟩ := h.1
      obtain rfl : c = 'e' := (List.cons_prefix_cons.mp ht).1
      rfl

theorem body_of_isPrefix {t : Text} (ht : t <+: label) (h : IsBare label) :
    body t = Text.trimEnd t := by
  have htrim : Text.trim t = Text.trimEnd t := by rw [Text.trim, trimStart_of_isPrefix ht h]
  have hstarts : Text.trimEnd t <+: label := (Text.dropEndWhile_isPrefix _ t).trans ht
  have hstart : ¬ Marker.commentStart <+: Text.trim t := by
    rw [htrim]
    intro hstart
    obtain ⟨value, rfl⟩ := h.1
    exact absurd (List.cons_prefix_cons.mp (hstart.trans hstarts)).1 (by decide)
  rw [body_eq_trim hstart fun hend => h.2 (hend.trans ht.isInfix), htrim]

theorem parse_of_isPrefix {t : Text} (ht : t <+: label) (h : IsBare label) :
    parse t = empty.readWords none ((Text.words t).map Word.ofText) := by
  rw [parse, body_of_isPrefix ht h, Text.words_trimEnd]

/-- Annotations of the same words have the same directives. -/
theorem parse_trim_eq_of_words_eq (h : IsBare label) (h' : IsBare label')
    (hwords : Text.words label = Text.words label') :
    parse (Text.trim label) = parse label' := by
  have hstarts : Text.trim label <+: label := by
    rw [Text.trim, trimStart_of_isPrefix (List.prefix_refl label) h]
    exact Text.dropEndWhile_isPrefix _ _
  have hsame : Text.words (Text.trim label) = Text.words label := by
    rw [Text.trim, trimStart_of_isPrefix (List.prefix_refl label) h, Text.words_trimEnd]
  rw [parse_of_isPrefix hstarts h, parse_of_isPrefix (List.prefix_refl label') h', hsame, hwords]

end

theorem mem_entries_of_get? {d : Directives} {key : Text} {value : Value}
    (h : d.get? key = some value) : (key, value) ∈ d.entries := by
  obtain ⟨front, behind, hentries, -⟩ := List.lookup_eq_some_iff.mp h
  rw [hentries]
  exact List.mem_append_right _ List.mem_cons_self

theorem get?_eq_none_iff {d : Directives} {key : Text} : d.get? key = none ↔ key ∉ d.keys := by
  rw [get?, List.lookup_eq_none_iff, keys, List.mem_map]
  constructor
  · rintro h ⟨entry, hentry, rfl⟩
    exact absurd rfl (bne_iff_ne.mp (h entry hentry))
  · intro h entry hentry
    exact bne_iff_ne.mpr fun heq => h ⟨entry, hentry, heq.symm⟩

/-- If no key is repeated, every entry is found. -/
theorem get?_of_mem_entries {d : Directives} (h : d.keys.Nodup) {key : Text} {value : Value}
    (hentry : (key, value) ∈ d.entries) : d.get? key = some value := by
  obtain ⟨front, behind, hentries⟩ := List.append_of_mem hentry
  refine List.lookup_eq_some_iff.mpr ⟨front, behind, hentries, ?_⟩
  intro entry hfront
  have hkeys : d.keys = front.map Prod.fst ++ key :: behind.map Prod.fst := by
    rw [keys, hentries, List.map_append, List.map_cons]
  rw [hkeys] at h
  have hne : entry.1 ≠ key :=
    (List.nodup_append.mp h).2.2 entry.1 (List.mem_map_of_mem hfront) key List.mem_cons_self
  exact bne_iff_ne.mpr (Ne.symm hne)

/-- A destination is one word of its annotation. -/
theorem tight_of_destination? {label written : Text}
    (h : (parse label).destination? = some written) : written.Tight := by
  unfold destination? at h
  split at h
  · next c cs hget =>
    obtain rfl := Option.some.inj h
    obtain ⟨-, t, ht, hvalue⟩ := isRead_of_mem_parse _ (mem_entries_of_get? hget)
    have heq : Value.text (c :: cs) = .text t := by
      simpa only [valueOf, ne_eq, not_true_eq_false, false_and, if_false] using hvalue
    rw [Value.text.inj heq]
    exact ht
  · cases h

end Partials.Directives
