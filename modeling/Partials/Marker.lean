import Partials.Text.Lines

/-!
# Markers

A block of a page stands between two comments. The opening marker is a comment whose text starts
with `extract:`; it ends at the first `-->` after that word. The closing marker is a comment that
holds the word `endextract` and blanks. This module recognises a marker at the start of a text and
finds the first marker in a text; `opening?_eq_some` and `closing?_eq_some` say what a recognised
marker looks like, and `search_eq_some` and `search_eq_none` that the first one is found.
-/

namespace Partials.Marker

def commentStart : Text := ['<', '!', '-', '-']

def commentEnd : Text := ['-', '-', '>']

/-- The word that begins an annotation, with its colon. -/
def extractWord : Text := ['e', 'x', 't', 'r', 'a', 'c', 't', ':']

def endWord : Text := ['e', 'n', 'd', 'e', 'x', 't', 'r', 'a', 'c', 't']

/-- A marker at the start of a text. -/
structure Found where
  /-- The characters of the marker. -/
  marker : Text
  /-- What the marker says: for an opening marker the text from `extract:` to the comment's end. -/
  inner : Text
  /-- What follows the marker. -/
  rest : Text
  deriving DecidableEq, Repr

/-- The text before and after the first occurrence of `pat`. -/
def cut? (pat : Text) : Text → Option (Text × Text)
  | [] => if pat.isEmpty then some ([], []) else none
  | c :: cs =>
    match Text.after? pat (c :: cs) with
    | some rest => some ([], rest)
    | none => (cut? pat cs).map fun (before, rest) => (c :: before, rest)

/-- The opening marker at the start of the text. -/
def opening? (t : Text) : Option Found := do
  let body ← Text.after? commentStart t
  let value ← Text.after? extractWord (Text.trimStart body)
  let (value, rest) ← cut? commentEnd value
  some ⟨t.take (t.length - rest.length), extractWord ++ value, rest⟩

/-- The closing marker at the start of the text. -/
def closing? (t : Text) : Option Found := do
  let body ← Text.after? commentStart t
  let tail ← Text.after? endWord (Text.trimStart body)
  let rest ← Text.after? commentEnd (Text.trimStart tail)
  some ⟨t.take (t.length - rest.length), endWord, rest⟩

/-- The first place at which `marker?` recognises a marker: the text before it and the marker. -/
def search (marker? : Text → Option Found) : Text → Option (Text × Found)
  | [] => none
  | c :: cs =>
    match marker? (c :: cs) with
    | some found => some ([], found)
    | none => (search marker? cs).map fun (gap, found) => (c :: gap, found)

theorem cut?_eq_some {pat t before rest : Text} (h : cut? pat t = some (before, rest)) :
    t = before ++ pat ++ rest := by
  induction t generalizing before with
  | nil =>
    rw [cut?] at h
    split at h <;> simp_all
  | cons c cs ih =>
    rw [cut?] at h
    split at h
    · next r hr =>
      obtain ⟨rfl, rfl⟩ := by simpa using h
      simpa using Text.after?_eq_some_iff.1 hr
    · obtain ⟨⟨b, r⟩, hb, hr⟩ := Option.map_eq_some_iff.1 h
      obtain ⟨rfl, rfl⟩ := by simpa using hr
      simp [ih hb]

private theorem take_length_sub {m r t : Text} (h : t = m ++ r) :
    t.take (t.length - r.length) = m := by
  simp [h]

/-- An opening marker is a comment start, blanks, an annotation and a comment end. -/
theorem opening?_eq_some {t : Text} {f : Found} (h : opening? t = some f) :
    t = f.marker ++ f.rest ∧
      ∃ blanks value : Text, (∀ c ∈ blanks, isBlank c = true) ∧ f.inner = extractWord ++ value ∧
        f.marker = commentStart ++ blanks ++ f.inner ++ commentEnd := by
  simp only [opening?, Option.bind_eq_bind, Option.bind_eq_some_iff, Text.after?_eq_some_iff,
    Option.some.injEq, Prod.exists] at h
  obtain ⟨body, rfl, value, hvalue, before, rest, hcut, rfl⟩ := h
  have hbody := Text.lead_append_trimStart body
  rw [hvalue, cut?_eq_some hcut] at hbody
  have ht : commentStart ++ body =
      (commentStart ++ Text.lead body ++ (extractWord ++ before) ++ commentEnd) ++ rest := by
    refine (congrArg (commentStart ++ ·) hbody).symm.trans ?_
    simp only [List.append_assoc]
  rw [take_length_sub ht]
  exact ⟨ht, Text.lead body, before, Text.isBlank_of_mem_lead, rfl, rfl⟩

/-- A closing marker is a comment that holds its word between blanks. -/
theorem closing?_eq_some {t : Text} {f : Found} (h : closing? t = some f) :
    t = f.marker ++ f.rest ∧
      ∃ blanks blanks' : Text, (∀ c ∈ blanks, isBlank c = true) ∧
        (∀ c ∈ blanks', isBlank c = true) ∧
        f.marker = commentStart ++ blanks ++ endWord ++ blanks' ++ commentEnd := by
  simp only [closing?, Option.bind_eq_bind, Option.bind_eq_some_iff, Text.after?_eq_some_iff,
    Option.some.injEq] at h
  obtain ⟨body, rfl, tail, htail, rest, hrest, rfl⟩ := h
  have hbody := Text.lead_append_trimStart body
  have htail' := Text.lead_append_trimStart tail
  rw [hrest] at htail'
  rw [htail, ← htail'] at hbody
  have ht : commentStart ++ body =
      (commentStart ++ Text.lead body ++ endWord ++ Text.lead tail ++ commentEnd) ++ rest := by
    refine (congrArg (commentStart ++ ·) hbody).symm.trans ?_
    simp only [List.append_assoc]
  rw [take_length_sub ht]
  exact ⟨ht, Text.lead body, Text.lead tail, Text.isBlank_of_mem_lead,
    Text.isBlank_of_mem_lead, rfl⟩

theorem opening?_marker_ne_nil {t : Text} {f : Found} (h : opening? t = some f) :
    f.marker ≠ [] := by
  obtain ⟨-, blanks, value, -, -, hm⟩ := opening?_eq_some h
  simp [hm, commentStart]

/-- A search stops at a marker, and no marker starts before it. -/
theorem search_eq_some {marker? : Text → Option Found} {t gap : Text} {f : Found}
    (h : search marker? t = some (gap, f)) :
    ∃ tail, t = gap ++ tail ∧ marker? tail = some f ∧
      ∀ gap' tail', t = gap' ++ tail' → gap'.length < gap.length → marker? tail' = none := by
  induction t generalizing gap with
  | nil => simp [search] at h
  | cons c cs ih =>
    rw [search] at h
    split at h
    · next found hf =>
      obtain ⟨rfl, rfl⟩ := by simpa using h
      exact ⟨c :: cs, by simp, hf, by simp⟩
    · next hnone =>
      obtain ⟨⟨g, f'⟩, hg, hr⟩ := Option.map_eq_some_iff.1 h
      obtain ⟨rfl, rfl⟩ := by simpa using hr
      obtain ⟨tail, rfl, hm, hbefore⟩ := ih hg
      refine ⟨tail, rfl, hm, ?_⟩
      intro gap' tail' heq hlen
      cases gap' with
      | nil =>
        obtain rfl : c :: (g ++ tail) = tail' := by simpa using heq
        exact hnone
      | cons d ds =>
        have heq : g ++ tail = ds ++ tail' := (List.cons.inj heq).2
        exact hbefore ds tail' heq (by simpa using hlen)

/-- A search fails where no marker starts anywhere in the text. -/
theorem search_eq_none {marker? : Text → Option Found} {t : Text}
    (h : search marker? t = none) :
    ∀ gap tail, t = gap ++ tail → tail ≠ [] → marker? tail = none := by
  induction t with
  | nil => simp
  | cons c cs ih =>
    rw [search] at h
    split at h
    · simp at h
    · next hnone =>
      intro gap tail heq htail
      cases gap with
      | nil =>
        obtain rfl : c :: cs = tail := by simpa using heq
        exact hnone
      | cons d ds =>
        exact ih (by simpa using h) ds tail (List.cons.inj heq).2 htail

end Partials.Marker
