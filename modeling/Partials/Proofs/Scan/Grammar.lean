import Partials.Proofs.Scan.Markers
import Partials.Proofs.Text.LineEndings
import Partials.Proofs.Text.Trimming
import Partials.Scan

/-!
# The grammar of a scan

A document is a sequence of groups, each a gap, an opening marker, a content and a closing marker,
and a tail. `Scan.Reads` says which groups and which tail a scan may see and what it reports of
them; `ofText_eq_iff` says that scanning reports exactly this.
-/

namespace Partials.Scan

open Marker

/-- The line of the character that follows the text, counted from 1. -/
def lineAfter (t : Text) : Nat := 1 + Text.newlines t

theorem lineAfter_append (s t : Text) : lineAfter (s ++ t) = lineAfter s + Text.newlines t := by
  simp [lineAfter, Nat.add_assoc]

/-- No opening marker starts in `gap` when `behind` follows it. -/
def IsGap (gap behind : Text) : Prop :=
  ∀ before rest, gap = before ++ rest → rest ≠ [] → ¬ OpensAt (rest ++ behind)

/-- A span with a closing marker, and the gap before it. -/
structure Group where
  gap : Text
  opening : Text
  /-- The text of the opening marker from `extract:` up to the comment's end. -/
  annotation : Text
  content : Text
  closing : Text

namespace Group

def text (g : Group) : Text := g.gap ++ g.opening ++ g.content ++ g.closing

/-- The group is one of the grammar where `behind` follows it. -/
structure Stands (g : Group) (behind : Text) : Prop where
  gap : IsGap g.gap (g.opening ++ g.content ++ g.closing ++ behind)
  opening : IsOpening g.opening g.annotation
  content : ¬ HoldsClosing g.content
  closing : IsClosing g.closing

/-- The span of a group that `before` precedes. -/
def span (before : Text) (g : Group) : Span where
  label := Text.trim g.annotation
  content := g.content
  startLine := lineAfter (before ++ g.gap)
  endLine := lineAfter (before ++ g.gap ++ g.opening ++ g.content)
  terminated := true

/-- All groups stand, each before the text of those that follow and of the tail. -/
def Stand : List Group → (tail : Text) → Prop
  | [], _ => True
  | g :: groups, tail => g.Stands (groups.flatMap text ++ tail) ∧ Stand groups tail

/-- The spans of the groups, where `before` precedes the first of them. -/
def spans (before : Text) : List Group → List Span
  | [] => []
  | g :: groups => g.span before :: spans (before ++ g.text) groups

end Group

/-- The span of an opening marker that nothing closes, where `before` precedes it. -/
def danglingSpan (before opening annotation content : Text) : Span where
  label := Text.trim annotation
  content := content
  startLine := lineAfter before
  endLine := lineAfter (Text.dropEndWhile (· == '\n') (before ++ opening ++ content))
  terminated := false

/-- What is reported of a tail that `before` precedes: nothing of one without an opening marker;
of another its first marker, which nothing closes, and its span if the document's end closes it. -/
inductive Ends (policy : Policy) (before : Text) : (tail : Text) → Scan → Prop
  | plain {tail : Text} (h : ¬ HoldsOpening tail) : Ends policy before tail ⟨[], none⟩
  | dangling {gap opening annotation content : Text}
      (hgap : IsGap gap (opening ++ content)) (hopening : IsOpening opening annotation)
      (hcontent : ¬ HoldsClosing content) :
      Ends policy before (gap ++ opening ++ content)
        ⟨match policy with
          | .discard => []
          | .closeAtEnd => [danglingSpan (before ++ gap) opening annotation content],
          some (lineAfter (before ++ gap))⟩

/-- What may be reported of `t` where `before` precedes it. -/
def ReadsAfter (policy : Policy) (before t : Text) (s : Scan) : Prop :=
  ∃ groups tail last,
    t = groups.flatMap Group.text ++ tail ∧ Group.Stand groups tail ∧
    Ends policy (before ++ groups.flatMap Group.text) tail last ∧
    s = ⟨Group.spans before groups ++ last.spans, last.unterminated⟩

/-- The grammar of a scan: the groups and the tail that make up the text, and the report of them. -/
def Reads (policy : Policy) (t : Text) (s : Scan) : Prop := ReadsAfter policy [] t s

theorem ofLines_of_none {policy : Policy} {line : Nat} {t : Text}
    (h : search opening? t = none) : ofLines policy line t = ⟨[], none⟩ := by
  rw [ofLines]
  split
  · rfl
  · next hsome => simp [h] at hsome

theorem ofLines_of_closed {policy : Policy} {line : Nat} {t gap content : Text}
    {opened closed : Found} (hopened : search opening? t = some (gap, opened))
    (hclosed : search closing? opened.rest = some (content, closed)) :
    ofLines policy line t =
      let start := line + Text.newlines gap
      let stop := start + Text.newlines opened.marker + Text.newlines content
      let later := ofLines policy (stop + Text.newlines closed.marker) closed.rest
      ⟨⟨Text.trim opened.inner, content, start, stop, true⟩ :: later.spans,
        later.unterminated⟩ := by
  rw [ofLines]
  split
  · next hnone => simp [hopened] at hnone
  · next gap' opened' hsome =>
    obtain ⟨rfl, rfl⟩ : gap = gap' ∧ opened = opened' := by simpa [hopened] using hsome
    split
    · next content' closed' hsome' =>
      obtain ⟨rfl, rfl⟩ : content = content' ∧ closed = closed' := by
        simpa [hclosed] using hsome'
      rfl
    · next hnone => simp [hclosed] at hnone

theorem ofLines_of_dangling {policy : Policy} {line : Nat} {t gap : Text} {opened : Found}
    (hopened : search opening? t = some (gap, opened))
    (hclosed : search closing? opened.rest = none) :
    ofLines policy line t =
      let start := line + Text.newlines gap
      let stop := start + Text.newlines opened.marker +
        Text.newlines (Text.dropEndWhile (· == '\n') opened.rest)
      ⟨match policy with
        | .discard => []
        | .closeAtEnd => [⟨Text.trim opened.inner, opened.rest, start, stop, false⟩],
        some start⟩ := by
  rw [ofLines]
  split
  · next hnone => simp [hopened] at hnone
  · next gap' opened' hsome =>
    obtain ⟨rfl, rfl⟩ : gap = gap' ∧ opened = opened' := by simpa [hopened] using hsome
    split
    · next content' closed' hsome' => simp [hclosed] at hsome'
    · cases policy <;> rfl

/-- The line feeds at the end of a document stand behind its last opening marker. -/
theorem lineAfter_dropEndWhile {opening annotation : Text} (hopening : IsOpening opening annotation)
    (before content : Text) :
    lineAfter (Text.dropEndWhile (· == '\n') (before ++ opening ++ content)) =
      lineAfter before + Text.newlines opening +
        Text.newlines (Text.dropEndWhile (· == '\n') content) := by
  obtain ⟨blanks, value, -, -, hmarker, -⟩ := hopening
  obtain ⟨front, hfront⟩ : ∃ front, opening = front ++ ['>'] :=
    ⟨commentStart ++ blanks ++ annotation ++ ['-', '-'], by simp [hmarker, commentEnd]⟩
  rw [hfront, ← List.append_assoc before front, Text.dropEndWhile_append rfl, lineAfter_append,
    List.append_assoc before front, lineAfter_append]

/-- Every text is a tail without opening markers, a tail with one that nothing closes, or a group
with what follows it. -/
theorem plain_or_dangling_or_group (t : Text) :
    ¬ HoldsOpening t ∨
    (∃ gap opening annotation content, t = gap ++ opening ++ content ∧
      IsGap gap (opening ++ content) ∧ IsOpening opening annotation ∧ ¬ HoldsClosing content) ∨
    ∃ (g : Group) (behind : Text), t = g.text ++ behind ∧ g.Stands behind := by
  cases hopened : search opening? t with
  | none => exact Or.inl (search_opening?_eq_none_iff.mp hopened)
  | some found =>
      obtain ⟨gap, opened⟩ := found
      obtain ⟨ht, hopening, hgap⟩ := search_opening?_eq_some_iff.mp hopened
      cases hclosed : search closing? opened.rest with
      | none =>
          refine Or.inr (Or.inl ⟨gap, opened.marker, opened.inner, opened.rest, ht, ?_, hopening,
            search_closing?_eq_none_iff.mp hclosed⟩)
          intro before rest heq hne
          rw [← List.append_assoc]
          exact hgap before rest heq hne
      | some found =>
          obtain ⟨content, closed⟩ := found
          obtain ⟨hrest, -, hclosing, hcontent⟩ := search_closing?_eq_some_iff.mp hclosed
          let g : Group := ⟨gap, opened.marker, opened.inner, content, closed.marker⟩
          refine Or.inr (Or.inr ⟨g, closed.rest, ?_, ?_, hopening, hcontent, hclosing⟩)
          · simp [g, Group.text, ht, hrest]
          · intro before rest heq hne
            have := hgap before rest heq hne
            rw [hrest] at this
            simpa [g] using this

theorem ofLines_plain {policy : Policy} {t : Text} (h : ¬ HoldsOpening t) (line : Nat) :
    ofLines policy line t = ⟨[], none⟩ :=
  ofLines_of_none (search_opening?_eq_none_iff.mpr h)

theorem ofLines_dangling {policy : Policy} {gap opening annotation content : Text}
    (hgap : IsGap gap (opening ++ content)) (hopening : IsOpening opening annotation)
    (hcontent : ¬ HoldsClosing content) (before : Text) :
    ofLines policy (lineAfter before) (gap ++ opening ++ content) =
      ⟨match policy with
        | .discard => []
        | .closeAtEnd => [danglingSpan (before ++ gap) opening annotation content],
        some (lineAfter (before ++ gap))⟩ := by
  let opened : Found := ⟨opening, annotation, content⟩
  have hopened : search opening? (gap ++ opening ++ content) = some (gap, opened) := by
    refine search_opening?_eq_some_iff.mpr ⟨rfl, hopening, ?_⟩
    intro before rest heq hne
    rw [List.append_assoc]
    exact hgap before rest heq hne
  rw [ofLines_of_dangling hopened (search_closing?_eq_none_iff.mpr hcontent)]
  simp only [danglingSpan, lineAfter_dropEndWhile hopening, lineAfter_append, opened]

theorem ofLines_group {policy : Policy} {g : Group} {behind : Text} (hg : g.Stands behind)
    (before : Text) :
    ofLines policy (lineAfter before) (g.text ++ behind) =
      ⟨g.span before :: (ofLines policy (lineAfter (before ++ g.text)) behind).spans,
        (ofLines policy (lineAfter (before ++ g.text)) behind).unterminated⟩ := by
  let opened : Found := ⟨g.opening, g.annotation, g.content ++ g.closing ++ behind⟩
  let closed : Found := ⟨g.closing, endWord, behind⟩
  have hopened : search opening? (g.text ++ behind) = some (g.gap, opened) := by
    refine search_opening?_eq_some_iff.mpr ⟨by simp [Group.text, opened], hg.opening, ?_⟩
    intro before rest heq hne
    have := hg.gap before rest heq hne
    simpa [opened] using this
  have hclosed : search closing? opened.rest = some (g.content, closed) :=
    search_closing?_eq_some_iff.mpr ⟨rfl, rfl, hg.closing, hg.content⟩
  rw [ofLines_of_closed hopened hclosed]
  simp only [Group.span, Group.text, lineAfter_append, Text.newlines_append, opened, closed,
    Nat.add_assoc]

/-- A scan reports the groups that stand at the start of a text and goes on behind them. -/
theorem ofLines_groups {policy : Policy} {groups : List Group} {tail : Text}
    (h : Group.Stand groups tail) (before : Text) :
    ofLines policy (lineAfter before) (groups.flatMap Group.text ++ tail) =
      let later := ofLines policy (lineAfter (before ++ groups.flatMap Group.text)) tail
      ⟨Group.spans before groups ++ later.spans, later.unterminated⟩ := by
  induction groups generalizing before with
  | nil =>
      rw [List.flatMap_nil, List.append_nil]
      rfl
  | cons g groups ih =>
      rw [List.flatMap_cons, List.append_assoc, ofLines_group h.1, ih h.2, ← List.append_assoc]
      rfl

theorem ReadsAfter.group {policy : Policy} {before behind : Text} {g : Group} {s : Scan}
    (hg : g.Stands behind) (hs : ReadsAfter policy (before ++ g.text) behind s) :
    ReadsAfter policy before (g.text ++ behind) ⟨g.span before :: s.spans, s.unterminated⟩ := by
  obtain ⟨groups, tail, last, rfl, hgroups, hlast, rfl⟩ := hs
  refine ⟨g :: groups, tail, last, by simp, ⟨hg, hgroups⟩, ?_, rfl⟩
  rw [List.flatMap_cons, ← List.append_assoc]
  exact hlast

theorem readsAfter_of_ends {policy : Policy} {before tail : Text} {last : Scan}
    (h : Ends policy before tail last) : ReadsAfter policy before tail last := by
  refine ⟨[], tail, last, rfl, trivial, ?_, rfl⟩
  rw [List.flatMap_nil, List.append_nil]
  exact h

/-- What a scan reports is in the grammar. -/
theorem readsAfter_ofLines (policy : Policy) (before t : Text) :
    ReadsAfter policy before t (ofLines policy (lineAfter before) t) := by
  -- On the length of the text: what follows a group is shorter, since markers are not empty.
  induction hlength : t.length using Nat.strongRecOn generalizing before t with
  | ind n ih =>
      rcases plain_or_dangling_or_group t with hplain | hdangling | hgroup
      · rw [ofLines_plain hplain]
        exact readsAfter_of_ends (Ends.plain hplain)
      · obtain ⟨gap, opening, annotation, content, rfl, hgap, hopening, hcontent⟩ := hdangling
        rw [ofLines_dangling hgap hopening hcontent]
        exact readsAfter_of_ends (Ends.dangling hgap hopening hcontent)
      · obtain ⟨g, behind, rfl, hg⟩ := hgroup
        rw [ofLines_group hg]
        apply ReadsAfter.group hg
        apply ih behind.length ?_ _ _ rfl
        obtain ⟨first, hfirst, -⟩ := hg.closing.eq_cons
        rw [← hlength, Group.text, hfirst]
        simp only [List.length_append, List.length_cons]
        omega

/-- The grammar allows no other report. -/
theorem eq_ofLines_of_readsAfter {policy : Policy} {before t : Text} {s : Scan}
    (h : ReadsAfter policy before t s) : ofLines policy (lineAfter before) t = s := by
  obtain ⟨groups, tail, last, rfl, hgroups, hlast, rfl⟩ := h
  have htail : ofLines policy (lineAfter (before ++ groups.flatMap Group.text)) tail = last := by
    cases hlast with
    | plain hplain => exact ofLines_plain hplain _
    | dangling hgap hopening hcontent => exact ofLines_dangling hgap hopening hcontent _
  rw [ofLines_groups hgroups, htail]

theorem ofText_eq_iff {policy : Policy} {t : Text} {s : Scan} :
    ofText policy t = s ↔ Reads policy (Text.normalizeLineEndings t) s := by
  constructor
  · rintro rfl
    exact readsAfter_ofLines policy [] _
  · exact eq_ofLines_of_readsAfter

theorem exists_group_of_mem_spans {before : Text} {groups : List Group} :
    ∀ span ∈ Group.spans before groups, ∃ g ∈ groups, ∃ front, span = g.span front := by
  induction groups generalizing before with
  | nil => simp [Group.spans]
  | cons g groups ih =>
      intro span hspan
      rcases List.mem_cons.mp hspan with rfl | hspan
      · exact ⟨g, List.mem_cons_self, before, rfl⟩
      · obtain ⟨g', hg', hfront⟩ := ih span hspan
        exact ⟨g', List.mem_cons_of_mem _ hg', hfront⟩

/-- The content of a span stands in the document. -/
theorem mem_of_mem_content {policy : Policy} {t : Text} {span : Span}
    (hspan : span ∈ (ofText policy t).spans) {c : Char} (hc : c ∈ span.content) : c ∈ t := by
  obtain ⟨groups, tail, last, ht, -, hlast, hscan⟩ :=
    ofText_eq_iff.mp (Eq.refl (ofText policy t))
  apply Text.mem_of_mem_normalizeLineEndings
  rw [ht]
  rw [hscan] at hspan
  rcases List.mem_append.mp hspan with hspan | hspan
  · obtain ⟨g, hg, front, rfl⟩ := exists_group_of_mem_spans span hspan
    refine List.mem_append_left _ (List.mem_flatMap.mpr ⟨g, hg, ?_⟩)
    exact List.mem_append_left _ (List.mem_append_right _ hc)
  · cases hlast with
    | plain hplain => cases hspan
    | dangling hgap hopening hcontent =>
        cases policy with
        | discard => cases hspan
        | closeAtEnd =>
            obtain rfl := List.mem_singleton.mp hspan
            exact List.mem_append_right _ (List.mem_append_right _ hc)

theorem exists_isOpening_of_mem_groupSpans {before tail : Text} {groups : List Group}
    (h : Group.Stand groups tail) :
    ∀ span ∈ Group.spans before groups,
      ∃ opening annotation, IsOpening opening annotation ∧ span.label = Text.trim annotation := by
  induction groups generalizing before with
  | nil => simp [Group.spans]
  | cons g groups ih =>
      intro span hspan
      rcases List.mem_cons.mp hspan with rfl | hspan
      · exact ⟨g.opening, g.annotation, h.1.opening, rfl⟩
      · exact ih h.2 span hspan

theorem exists_isOpening_of_mem_spans {policy : Policy} {t : Text} {span : Span}
    (hspan : span ∈ (ofText policy t).spans) :
    ∃ opening annotation, IsOpening opening annotation ∧ span.label = Text.trim annotation := by
  obtain ⟨groups, tail, last, -, hgroups, hlast, hscan⟩ :=
    ofText_eq_iff.mp (Eq.refl (ofText policy t))
  rw [hscan] at hspan
  rcases List.mem_append.mp hspan with hspan | hspan
  · exact exists_isOpening_of_mem_groupSpans hgroups span hspan
  · cases hlast with
    | plain hplain => cases hspan
    | @dangling gap opening annotation content hgap hopening hcontent =>
        cases policy with
        | discard => cases hspan
        | closeAtEnd =>
            obtain rfl := List.mem_singleton.mp hspan
            exact ⟨opening, annotation, hopening, rfl⟩

/-- No comment ends in the label of a span. -/
theorem not_commentEnd_isInfix_label {policy : Policy} {t : Text} {span : Span}
    (hspan : span ∈ (ofText policy t).spans) : ¬ commentEnd <:+: span.label := by
  obtain ⟨opening, annotation, hopening, hlabel⟩ := exists_isOpening_of_mem_spans hspan
  rw [hlabel]
  intro h
  exact hopening.not_commentEnd_isInfix (h.trans (Text.trim_isInfix _))

theorem terminated_of_mem_spans {before : Text} {groups : List Group} :
    ∀ span ∈ Group.spans before groups, span.terminated = true := by
  intro span hspan
  obtain ⟨g, -, front, rfl⟩ := exists_group_of_mem_spans span hspan
  rfl

/-- The policies differ in nothing but the span of a marker that is never closed. -/
theorem policies_agree (t : Text) :
    ∃ spans, (∀ span ∈ spans, span.terminated = true) ∧
      ((∀ policy, ofText policy t = ⟨spans, none⟩) ∨
        ∃ front opening annotation content,
          Text.normalizeLineEndings t = front ++ opening ++ content ∧
          IsOpening opening annotation ∧ ¬ HoldsClosing content ∧
          ofText .discard t = ⟨spans, some (lineAfter front)⟩ ∧
          ofText .closeAtEnd t =
            ⟨spans ++ [danglingSpan front opening annotation content], some (lineAfter front)⟩) := by
  obtain ⟨groups, tail, last, ht, hgroups, hlast, -⟩ := ofText_eq_iff.mp (Eq.refl (ofText .discard t))
  refine ⟨Group.spans [] groups, terminated_of_mem_spans, ?_⟩
  cases hlast with
  | plain hplain =>
      refine Or.inl fun policy => ofText_eq_iff.mpr ?_
      exact ⟨groups, tail, _, ht, hgroups, Ends.plain hplain, by simp⟩
  | @dangling gap opening annotation content hgap hopening hcontent =>
      refine Or.inr ⟨groups.flatMap Group.text ++ gap, opening, annotation, content, ?_, hopening,
        hcontent, ofText_eq_iff.mpr ?_, ofText_eq_iff.mpr ?_⟩
      · simp [ht]
      · exact ⟨groups, _, _, ht, hgroups, Ends.dangling hgap hopening hcontent, by simp⟩
      · exact ⟨groups, _, _, ht, hgroups, Ends.dangling hgap hopening hcontent, by simp⟩

theorem startLine_le_endLine_danglingSpan {opening annotation : Text}
    (hopening : IsOpening opening annotation) (before content : Text) :
    (danglingSpan before opening annotation content).startLine ≤
      (danglingSpan before opening annotation content).endLine := by
  simp only [danglingSpan, lineAfter_dropEndWhile hopening]
  omega

/-- A scan accepts exactly its grammar, its lines are those of the document as it is written, and
the policies agree on everything but one span of an annotation that is never closed: it is added
where the document's end closes it, holds the rest of the document, and does not end above its
start. -/
theorem ofText_accepts_grammar (t : Text) :
    (∀ policy s, ofText policy t = s ↔ Reads policy (Text.normalizeLineEndings t) s) ∧
    (∀ before behind, Text.normalizeLineEndings t = before ++ behind →
      ∃ before' behind', t = before' ++ behind' ∧ Text.normalizeLineEndings before' = before ∧
        Text.normalizeLineEndings behind' = behind ∧ lineAfter before' = lineAfter before) ∧
    ∃ spans, (∀ span ∈ spans, span.terminated = true) ∧
      ((∀ policy, ofText policy t = ⟨spans, none⟩) ∨
        ∃ front opening annotation content endLine,
          Text.normalizeLineEndings t = front ++ opening ++ content ∧
          IsOpening opening annotation ∧ ¬ HoldsClosing content ∧ lineAfter front ≤ endLine ∧
          ofText .discard t = ⟨spans, some (lineAfter front)⟩ ∧
          ofText .closeAtEnd t =
            ⟨spans ++ [⟨Text.trim annotation, content, lineAfter front, endLine, false⟩],
              some (lineAfter front)⟩) := by
  refine ⟨fun policy s => ofText_eq_iff, ?_, ?_⟩
  · intro before behind h
    obtain ⟨before', behind', ht, hbefore, hbehind⟩ := Text.exists_append_of_normalizeLineEndings h
    refine ⟨before', behind', ht, hbefore, hbehind, ?_⟩
    rw [lineAfter, lineAfter, ← hbefore, Text.newlines_normalizeLineEndings]
  · obtain ⟨spans, hspans, hplain | hdangling⟩ := policies_agree t
    · exact ⟨spans, hspans, Or.inl hplain⟩
    · obtain ⟨front, opening, annotation, content, ht, hopening, hcontent, hdiscard, hclose⟩ :=
        hdangling
      have hle := startLine_le_endLine_danglingSpan hopening front content
      exact ⟨spans, hspans, Or.inr ⟨front, opening, annotation, content, _, ht, hopening, hcontent,
        hle, hdiscard, hclose⟩⟩

end Partials.Scan
