import Partials.Marker
import Partials.Proofs.Text.Joining
import Partials.Proofs.Text.Trimming

/-!
# What markers look like

The patterns of the two markers, said without the recognisers: `IsOpening`, `IsClosing`. The
recognisers find exactly these at the start of a text (`opening?_eq_some_iff`,
`closing?_eq_some_iff`), and a search finds the first of them (`search_opening?_eq_some_iff`,
`search_closing?_eq_some_iff`). A closing marker cannot begin inside another one, so for those it is
enough that the text in front holds none.
-/

namespace Partials.Marker

def IsBlanks (t : Text) : Prop := ∀ c ∈ t, isBlank c = true

/-- An opening marker and its annotation: behind the start of a comment and blanks, the text from
`extract:` up to the first end of a comment that follows that word. -/
def IsOpening (marker annotation : Text) : Prop :=
  ∃ blanks value, IsBlanks blanks ∧ annotation = extractWord ++ value ∧
    marker = commentStart ++ blanks ++ annotation ++ commentEnd ∧
    ∀ before behind, value ++ commentEnd = before ++ commentEnd ++ behind → behind = []

/-- A closing marker: a comment that holds its word between blanks. -/
def IsClosing (marker : Text) : Prop :=
  ∃ blanks blanks', IsBlanks blanks ∧ IsBlanks blanks' ∧
    marker = commentStart ++ blanks ++ endWord ++ blanks' ++ commentEnd

/-- The text starts with an opening marker. -/
def OpensAt (t : Text) : Prop :=
  ∃ marker annotation rest, IsOpening marker annotation ∧ t = marker ++ rest

/-- The text starts with a closing marker. -/
def ClosesAt (t : Text) : Prop := ∃ marker rest, IsClosing marker ∧ t = marker ++ rest

def HoldsOpening (t : Text) : Prop := ∃ before behind, t = before ++ behind ∧ OpensAt behind

def HoldsClosing (t : Text) : Prop := ∃ before behind, t = before ++ behind ∧ ClosesAt behind

/-- A cut is made at the first occurrence: none ends before it does. -/
theorem cut?_eq_some_iff {pat t before rest : Text} (hpat : pat ≠ []) :
    cut? pat t = some (before, rest) ↔
      t = before ++ pat ++ rest ∧ ∀ b r, before ++ pat = b ++ pat ++ r → r = [] := by
  induction t generalizing before with
  | nil => simp [cut?, hpat]
  | cons c cs ih =>
      rw [cut?]
      cases hafter : Text.after? pat (c :: cs) with
      | some rest' =>
          rw [Text.after?_eq_some_iff] at hafter
          simp only [Option.some.injEq, Prod.mk.injEq]
          constructor
          · rintro ⟨rfl, rfl⟩
            refine ⟨by simpa using hafter, ?_⟩
            intro b r heq
            have hlength := congrArg List.length heq
            simp only [List.length_append, List.length_nil] at hlength
            exact List.length_eq_zero_iff.mp (by omega)
          · rintro ⟨heq, hfirst⟩
            have hle : pat <+: before ++ pat := by
              refine List.prefix_of_prefix_length_le ⟨rest', hafter.symm⟩ ⟨rest, heq.symm⟩ ?_
              simp
            obtain ⟨r, hr⟩ := hle
            have hnil := hfirst [] r (by simpa using hr.symm)
            have hlength := congrArg List.length hr
            rw [hnil] at hlength
            simp only [List.length_append, List.length_nil] at hlength
            have hbefore : before = [] := List.length_eq_zero_iff.mp (by omega)
            rw [hbefore, hafter] at heq
            exact ⟨hbefore.symm, by simpa using heq⟩
      | none =>
          have hnot : ∀ r, c :: cs ≠ pat ++ r := by
            intro r heq
            rw [Text.after?_eq_some_iff.mpr heq] at hafter
            simp at hafter
          simp only [Option.map_eq_some_iff, Prod.mk.injEq, Prod.exists]
          constructor
          · rintro ⟨b, r, hcut, rfl, rfl⟩
            obtain ⟨hcs, hfirst⟩ := ih.mp hcut
            refine ⟨by simp [hcs], ?_⟩
            intro b' r' heq
            cases b' with
            | nil =>
                refine absurd ?_ (hnot (r' ++ r))
                rw [hcs, ← List.cons_append, ← List.cons_append, heq]
                simp
            | cons d ds => exact hfirst ds r' (List.cons.inj heq).2
          · rintro ⟨heq, hfirst⟩
            cases before with
            | nil => exact absurd (by simpa using heq) (hnot rest)
            | cons d ds =>
                obtain ⟨rfl, hcs⟩ := List.cons.inj heq
                refine ⟨ds, rest, ih.mpr ⟨hcs, ?_⟩, rfl, rfl⟩
                intro b' r' heq'
                exact hfirst (c :: b') r' (by simp [heq'])

theorem exists_cut?_eq_some {pat t : Text} (hpat : pat ≠ []) (h : pat <:+: t) :
    ∃ before rest, cut? pat t = some (before, rest) := by
  induction t with
  | nil => exact absurd (List.infix_nil.mp h) hpat
  | cons c cs ih =>
      cases hafter : Text.after? pat (c :: cs) with
      | some rest => exact ⟨[], rest, by simp only [cut?, hafter]⟩
      | none =>
          rcases List.infix_cons_iff.mp h with ⟨rest, hstarts⟩ | hlater
          · have hsome := Text.after?_eq_some_iff.mpr hstarts.symm
            rw [hafter] at hsome
            cases hsome
          · obtain ⟨before, rest, hcut⟩ := ih hlater
            refine ⟨c :: before, rest, ?_⟩
            simp only [cut?, hafter, hcut, Option.map_some]

/-- No comment ends in an annotation. -/
theorem IsOpening.not_commentEnd_isInfix {marker annotation : Text}
    (h : IsOpening marker annotation) : ¬ commentEnd <:+: annotation := by
  obtain ⟨blanks, value, -, rfl, -, hfirst⟩ := h
  intro h
  have hword : commentEnd <:+: ['e', 'x', 't', 'r', 'a', 'c', 't'] ++ ':' :: value := h
  rcases Text.isInfix_append_cons (by decide) hword with h | ⟨before, behind, hvalue⟩
  · exact absurd h (by decide)
  · have hnil : behind ++ commentEnd = [] := by
      apply hfirst before
      rw [← hvalue, List.append_assoc (before ++ commentEnd)]
    cases (List.append_eq_nil_iff.mp hnil).2

/-- Behind the word that begins an annotation, any end of a comment completes the marker. -/
theorem opensAt_of_commentEnd_isInfix {blanks value : Text} (hblanks : IsBlanks blanks)
    (h : commentEnd <:+: value) : OpensAt (commentStart ++ blanks ++ extractWord ++ value) := by
  have hne : commentEnd ≠ [] := by decide
  obtain ⟨before, rest, hcut⟩ := exists_cut?_eq_some hne h
  obtain ⟨rfl, hfirst⟩ := (cut?_eq_some_iff hne).mp hcut
  refine ⟨_, extractWord ++ before, rest, ⟨blanks, before, hblanks, rfl, rfl, hfirst⟩, ?_⟩
  simp only [List.append_assoc]

theorem IsBlanks.not_mem_commentSign {blanks : Text} (h : IsBlanks blanks) : '<' ∉ blanks := by
  intro hmem
  have hblank := h '<' hmem
  revert hblank
  decide

/-- Whether an opening marker starts in front of another one is decided where that one ends. -/
theorem opensAt_append_of_opensAt {gap opening annotation behind : Text} (hgap : gap ≠ [])
    (hopening : IsOpening opening annotation) (h : OpensAt (gap ++ (opening ++ behind)))
    (behind' : Text) : OpensAt (gap ++ (opening ++ behind')) := by
  obtain ⟨marker, label, rest, ⟨blanks, value, hblanks, rfl, rfl, -⟩, ht⟩ := h
  obtain ⟨blanks', value', -, rfl, rfl, -⟩ := hopening
  obtain ⟨c, cs, rfl⟩ := List.exists_cons_of_ne_nil hgap
  -- The sign that opens the second comment does not stand in the start of the first.
  have hsign : '<' ∉ ['!', '-', '-'] ++ blanks ++ extractWord := by
    simp [extractWord, hblanks.not_mem_commentSign]
  have hstarts : commentStart ++ blanks ++ extractWord <+: c :: cs ++
      '<' :: (['!', '-', '-'] ++ blanks' ++ (extractWord ++ value') ++ commentEnd ++ behind) := by
    refine ⟨value ++ commentEnd ++ rest, ?_⟩
    have hflat := ht.symm
    simp only [List.append_assoc] at hflat ⊢
    exact hflat
  obtain ⟨rfl, htail⟩ := List.cons_prefix_cons.mp hstarts
  obtain ⟨more, rfl⟩ := Text.isPrefix_of_isPrefix_append_cons hsign htail
  have hends : commentEnd <:+: more ++ (commentStart ++ blanks' ++ (extractWord ++ value') ++
      commentEnd ++ behind') := by
    refine ⟨more ++ (commentStart ++ blanks' ++ (extractWord ++ value')), behind', ?_⟩
    simp only [List.append_assoc]
  have hopens := opensAt_of_commentEnd_isInfix hblanks hends
  simpa only [commentStart, List.append_assoc, List.cons_append, List.nil_append] using hopens

private theorem take_sub {marker rest : Text} :
    (marker ++ rest).take ((marker ++ rest).length - rest.length) = marker := by
  simp

theorem opening?_eq_some_iff {t : Text} {f : Found} :
    opening? t = some f ↔ t = f.marker ++ f.rest ∧ IsOpening f.marker f.inner := by
  constructor
  · intro h
    obtain ⟨ht, blanks, value, hblanks, hinner, hmarker⟩ := opening?_eq_some h
    refine ⟨ht, blanks, value, hblanks, hinner, hmarker, ?_⟩
    simp only [opening?, Option.bind_eq_bind, Option.bind_eq_some_iff, Option.some.injEq,
      Prod.exists] at h
    obtain ⟨body, -, tail, -, before, rest, hcut, rfl⟩ := h
    have hbefore : before = value := List.append_cancel_left hinner
    rw [← hbefore]
    exact ((cut?_eq_some_iff (by simp [commentEnd])).mp hcut).2
  · rintro ⟨ht, blanks, value, hblanks, hinner, hmarker, hfirst⟩
    obtain ⟨marker, inner, rest⟩ := f
    simp only at ht hinner hmarker
    have hstart : Text.after? commentStart t =
        some (blanks ++ (extractWord ++ (value ++ commentEnd ++ rest))) := by
      rw [Text.after?_eq_some_iff, ht, hmarker, hinner]
      simp only [List.append_assoc]
    have htrim : Text.trimStart (blanks ++ (extractWord ++ (value ++ commentEnd ++ rest))) =
        extractWord ++ (value ++ commentEnd ++ rest) := Text.trimStart_append hblanks rfl
    have hcut : cut? commentEnd (value ++ commentEnd ++ rest) = some (value, rest) :=
      (cut?_eq_some_iff (by simp [commentEnd])).mpr ⟨rfl, hfirst⟩
    simp only [opening?, hstart, htrim, Text.after?_append, hcut, Option.bind_eq_bind,
      Option.bind_some, hinner]
    rw [ht, take_sub]

theorem closing?_eq_some_iff {t : Text} {f : Found} :
    closing? t = some f ↔
      t = f.marker ++ f.rest ∧ f.inner = endWord ∧ IsClosing f.marker := by
  constructor
  · intro h
    obtain ⟨ht, hmarker⟩ := closing?_eq_some h
    refine ⟨ht, ?_, hmarker⟩
    simp only [closing?, Option.bind_eq_bind, Option.bind_eq_some_iff, Option.some.injEq] at h
    obtain ⟨body, -, tail, -, rest, -, rfl⟩ := h
    rfl
  · rintro ⟨ht, hinner, blanks, blanks', hblanks, hblanks', hmarker⟩
    obtain ⟨marker, inner, rest⟩ := f
    simp only at ht hinner hmarker
    have hstart : Text.after? commentStart t =
        some (blanks ++ (endWord ++ (blanks' ++ (commentEnd ++ rest)))) := by
      rw [Text.after?_eq_some_iff, ht, hmarker]
      simp only [List.append_assoc]
    have htrim : Text.trimStart (blanks ++ (endWord ++ (blanks' ++ (commentEnd ++ rest)))) =
        endWord ++ (blanks' ++ (commentEnd ++ rest)) := Text.trimStart_append hblanks rfl
    have htrim' : Text.trimStart (blanks' ++ (commentEnd ++ rest)) = commentEnd ++ rest :=
      Text.trimStart_append hblanks' rfl
    simp only [closing?, hstart, htrim, htrim', Text.after?_append, Option.bind_eq_bind,
      Option.bind_some, hinner]
    rw [ht, take_sub]

theorem opening?_eq_none_iff {t : Text} : opening? t = none ↔ ¬ OpensAt t := by
  constructor
  · rintro hnone ⟨marker, annotation, rest, hopening, ht⟩
    have hsome := (opening?_eq_some_iff (f := ⟨marker, annotation, rest⟩)).mpr ⟨ht, hopening⟩
    rw [hnone] at hsome
    simp at hsome
  · intro h
    rw [Option.eq_none_iff_forall_ne_some]
    intro f hf
    obtain ⟨ht, hopening⟩ := opening?_eq_some_iff.mp hf
    exact h ⟨f.marker, f.inner, f.rest, hopening, ht⟩

theorem closing?_eq_none_iff {t : Text} : closing? t = none ↔ ¬ ClosesAt t := by
  constructor
  · rintro hnone ⟨marker, rest, hclosing, ht⟩
    have hsome := (closing?_eq_some_iff (f := ⟨marker, endWord, rest⟩)).mpr ⟨ht, rfl, hclosing⟩
    rw [hnone] at hsome
    simp at hsome
  · intro h
    rw [Option.eq_none_iff_forall_ne_some]
    intro f hf
    obtain ⟨ht, -, hclosing⟩ := closing?_eq_some_iff.mp hf
    exact h ⟨f.marker, f.rest, hclosing, ht⟩

theorem search_of_marker {marker? : Text → Option Found} (hnil : marker? [] = none)
    {gap tail : Text} {f : Found} (hf : marker? tail = some f)
    (hgap : ∀ before behind, gap = before ++ behind → behind ≠ [] →
      marker? (behind ++ tail) = none) :
    search marker? (gap ++ tail) = some (gap, f) := by
  induction gap with
  | nil =>
      cases tail with
      | nil => simp [hnil] at hf
      | cons c cs => simp [search, hf]
  | cons c cs ih =>
      have hnone : marker? (c :: (cs ++ tail)) = none := hgap [] (c :: cs) rfl (by simp)
      rw [List.cons_append, search, hnone]
      simp only
      rw [ih fun before behind heq hne => hgap (c :: before) behind (by simp [heq]) hne]
      rfl

theorem search_eq_none_iff {marker? : Text → Option Found} (hnil : marker? [] = none) {t : Text} :
    search marker? t = none ↔ ∀ before behind, t = before ++ behind → marker? behind = none := by
  constructor
  · intro hnone before behind heq
    by_cases hne : behind = []
    · rw [hne, hnil]
    · exact search_eq_none hnone before behind heq hne
  · intro h
    induction t with
    | nil => rfl
    | cons c cs ih =>
        rw [search, h [] (c :: cs) rfl]
        simp only
        rw [ih fun before behind heq => h (c :: before) behind (by simp [heq])]
        rfl

theorem opening?_nil : opening? [] = none := rfl

theorem closing?_nil : closing? [] = none := rfl

/-- A search for an opening marker stops at the first place where one starts. -/
theorem search_opening?_eq_some_iff {t gap : Text} {f : Found} :
    search opening? t = some (gap, f) ↔
      t = gap ++ f.marker ++ f.rest ∧ IsOpening f.marker f.inner ∧
      ∀ before behind, gap = before ++ behind → behind ≠ [] →
        ¬ OpensAt (behind ++ f.marker ++ f.rest) := by
  constructor
  · intro h
    obtain ⟨tail, ht, hf, hbefore⟩ := search_eq_some h
    obtain ⟨htail, hopening⟩ := opening?_eq_some_iff.mp hf
    subst htail
    refine ⟨by simp [ht], hopening, ?_⟩
    intro before behind heq hne
    rw [← opening?_eq_none_iff]
    refine hbefore before _ (by simp [ht, heq]) ?_
    have hlength := List.length_pos_iff.mpr hne
    rw [heq, List.length_append]
    omega
  · rintro ⟨ht, hopening, hgap⟩
    have hf := opening?_eq_some_iff.mpr ⟨rfl, hopening⟩
    rw [ht, List.append_assoc]
    refine search_of_marker opening?_nil hf ?_
    intro before behind heq hne
    rw [opening?_eq_none_iff, ← List.append_assoc]
    exact hgap before behind heq hne

theorem search_opening?_eq_none_iff {t : Text} :
    search opening? t = none ↔ ¬ HoldsOpening t := by
  rw [search_eq_none_iff opening?_nil]
  simp only [opening?_eq_none_iff, HoldsOpening, not_exists, not_and]

/-- A closing marker holds the sign that opens a comment only at its start. -/
theorem IsClosing.eq_cons {marker : Text} (h : IsClosing marker) :
    ∃ tail, marker = '<' :: tail ∧ '<' ∉ tail := by
  obtain ⟨blanks, blanks', hblanks, hblanks', rfl⟩ := h
  refine ⟨['!', '-', '-'] ++ blanks ++ endWord ++ blanks' ++ commentEnd, rfl, ?_⟩
  simp [endWord, commentEnd, hblanks.not_mem_commentSign, hblanks'.not_mem_commentSign]

/-- In front of a closing marker none begins, if the text there holds none. -/
theorem not_closesAt_of_not_holdsClosing {content marker rest : Text} (hmarker : IsClosing marker)
    (hcontent : ¬ HoldsClosing content) {before behind : Text} (heq : content = before ++ behind)
    (hne : behind ≠ []) : ¬ ClosesAt (behind ++ (marker ++ rest)) := by
  rintro ⟨marker', rest', hmarker', ht⟩
  rcases List.append_eq_append_iff.mp ht with ⟨overlap, hmarker'eq, htail⟩ | ⟨more, hbehind, -⟩
  · obtain ⟨first, hfirst, -⟩ := hmarker.eq_cons
    obtain ⟨tail', htail', hnot⟩ := hmarker'.eq_cons
    obtain ⟨c, cs, rfl⟩ := List.exists_cons_of_ne_nil hne
    cases overlap with
    | nil =>
        refine hcontent ⟨before, c :: cs, heq, marker', [], hmarker', ?_⟩
        simp [hmarker'eq]
    | cons d ds =>
        have hd : d = '<' := by
          rw [hfirst] at htail
          exact (List.cons.inj htail).1.symm
        rw [htail'] at hmarker'eq
        apply hnot
        rw [(List.cons.inj hmarker'eq).2, hd]
        simp
  · exact hcontent ⟨before, behind, heq, marker', more, hmarker', hbehind⟩

/-- A search for a closing marker stops at the first one: the text before holds none. -/
theorem search_closing?_eq_some_iff {t content : Text} {f : Found} :
    search closing? t = some (content, f) ↔
      t = content ++ f.marker ++ f.rest ∧ f.inner = endWord ∧ IsClosing f.marker ∧
        ¬ HoldsClosing content := by
  constructor
  · intro h
    obtain ⟨tail, ht, hf, hbefore⟩ := search_eq_some h
    obtain ⟨htail, hinner, hclosing⟩ := closing?_eq_some_iff.mp hf
    subst htail
    refine ⟨by simp [ht], hinner, hclosing, ?_⟩
    rintro ⟨before, behind, heq, marker, rest, hmarker, hbehind⟩
    have hnone := hbefore before (behind ++ (f.marker ++ f.rest)) (by simp [ht, heq]) (by
      obtain ⟨tail, rfl, -⟩ := hmarker.eq_cons
      rw [heq, hbehind]
      simp)
    refine closing?_eq_none_iff.mp hnone ⟨marker, rest ++ (f.marker ++ f.rest), hmarker, ?_⟩
    rw [hbehind, List.append_assoc]
  · rintro ⟨ht, hinner, hclosing, hcontent⟩
    have hf := closing?_eq_some_iff.mpr ⟨rfl, hinner, hclosing⟩
    rw [ht, List.append_assoc]
    refine search_of_marker closing?_nil hf ?_
    intro before behind heq hne
    rw [closing?_eq_none_iff]
    exact not_closesAt_of_not_holdsClosing hclosing hcontent heq hne

theorem search_closing?_eq_none_iff {t : Text} :
    search closing? t = none ↔ ¬ HoldsClosing t := by
  rw [search_eq_none_iff closing?_nil]
  simp only [closing?_eq_none_iff, HoldsClosing, not_exists, not_and]

end Partials.Marker
