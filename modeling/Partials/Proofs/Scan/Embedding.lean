import Partials.Proofs.Directives.Entries
import Partials.Proofs.Margin.Fragments
import Partials.Proofs.Scan.Grammar

/-!
# Fragments embedded in a document

A document can hold a fragment between two markers, all of it under the margin of a page. The first
group of a scan is then the embedded one, and its content is what was written between the markers:
`ofText_embedding`.
-/

namespace Partials

open Marker

/-- A document that holds the fragment behind the annotation, under a margin. -/
structure Embedding (label : Text) (f : Fragment) where
  /-- What stands in the document before the margin of the opening marker. -/
  before : Text
  margin : Text
  /-- The blanks between the start of the comment and the annotation. -/
  blanks : Text
  /-- The blanks between the annotation and the end of the comment. -/
  blanks' : Text
  /-- The lines of the fragment as they stand in the document. -/
  written : List Text
  /-- What follows the closing marker. -/
  behind : Text
  /-- No comment starts in front of the fragment. -/
  plain : ¬ commentStart <:+: before
  isPad : Margin.IsPad margin
  isBlanks : IsBlanks blanks
  isBlanks' : IsBlanks blanks'
  isWritten : List.Forall₂ (Margin.WrittenUnder margin) f.lines written
  isOpen : ¬ HoldsClosing (Text.join ['\n'] written)

namespace Embedding

variable {label : Text} {f : Fragment}

/-- The closing marker as it is usually written. -/
def closing : Text := commentStart ++ ' ' :: endWord ++ ' ' :: commentEnd

def opening (e : Embedding label f) : Text :=
  commentStart ++ e.blanks ++ (label ++ e.blanks') ++ commentEnd

/-- What stands between the two markers. -/
def inside (e : Embedding label f) : Text :=
  '\n' :: Text.join ['\n'] e.written ++ '\n' :: e.margin

def text (e : Embedding label f) : Text :=
  e.before ++ e.margin ++ e.opening ++ e.inside ++ closing ++ e.behind

/-- The annotation of the opening marker, where lines end in a line feed only. -/
def inner (e : Embedding label f) : Text := Text.normalizeLineEndings (label ++ e.blanks')

/-- The group that a scan sees. -/
def group (e : Embedding label f) : Scan.Group where
  gap := Text.normalizeLineEndings e.before ++ e.margin
  opening := commentStart ++ Text.normalizeLineEndings e.blanks ++ e.inner ++ commentEnd
  annotation := e.inner
  content := e.inside
  closing := closing

theorem inside_eq_join (e : Embedding label f) :
    e.inside = Text.join ['\n'] ([] :: (e.written ++ [e.margin])) := by
  have hne := Margin.written_ne_nil e.isWritten
  rw [Text.join_cons (by simp), Text.join_append hne (by simp)]
  simp [inside, Text.join]

theorem normalize_inside (e : Embedding label f) :
    Text.normalizeLineEndings e.inside = e.inside := by
  rw [inside_eq_join]
  apply Text.normalizeLineEndings_join
  intro line hline
  have hmargin : '\n' ∉ e.margin ∧ e.margin.getLast? ≠ some '\r' := by
    refine ⟨e.isPad.not_mem (by decide) (by decide), ?_⟩
    intro hlast
    exact e.isPad.not_mem (by decide) (by decide) (List.mem_of_getLast? hlast)
  rcases List.mem_cons.mp hline with rfl | hline
  · simp
  · rcases List.mem_append.mp hline with hline | hline
    · obtain ⟨source, hsource, hwritten⟩ := Margin.exists_of_mem_of_forall₂ e.isWritten hline
      have hisLine := f.isLine source hsource
      exact ⟨Margin.newline_not_mem_of_writtenUnder e.isPad hisLine hwritten,
        Margin.getLast?_ne_return_of_writtenUnder hisLine hwritten⟩
    · obtain rfl := List.mem_singleton.mp hline
      exact hmargin

theorem normalize_opening (e : Embedding label f) (h : Directives.IsBare label) :
    Text.normalizeLineEndings e.opening = e.group.opening := by
  obtain ⟨value, rfl⟩ := h.1
  have hstart : Text.normalizeLineEndings commentStart = commentStart := by decide
  have hend : Text.normalizeLineEndings commentEnd = commentEnd := by decide
  rw [opening, Text.normalizeLineEndings_append (by simp [commentEnd]),
    Text.normalizeLineEndings_append (by simp [extractWord]),
    Text.normalizeLineEndings_append (by simp [commentStart]), hstart, hend]
  rfl

theorem normalize_text (e : Embedding label f) (h : Directives.IsBare label) :
    Text.normalizeLineEndings e.text = e.group.text ++ Text.normalizeLineEndings e.behind := by
  have hclosing : Text.normalizeLineEndings closing = closing := by decide
  have hmargin : Text.normalizeLineEndings e.margin = e.margin :=
    Text.normalizeLineEndings_of_newline_not_mem (e.isPad.not_mem (by decide) (by decide))
  have hhead : e.margin.head? ≠ some '\n' := by
    intro heq
    exact e.isPad.not_mem (by decide) (by decide) (List.mem_of_mem_head? heq)
  have hlast : closing.getLast? = some '>' := by decide
  rw [text, Text.normalizeLineEndings_append (by simp [List.getLast?_append, hlast]),
    Text.normalizeLineEndings_append (by simp [closing, commentStart]),
    Text.normalizeLineEndings_append (by simp [opening, commentEnd]),
    Text.normalizeLineEndings_append (by simp [opening, commentStart]),
    Text.normalizeLineEndings_append fun _ => hhead, hmargin, hclosing, normalize_inside,
    normalize_opening e h]
  rfl

theorem isBlanks_normalize {blanks : Text} (h : IsBlanks blanks) :
    IsBlanks (Text.normalizeLineEndings blanks) :=
  fun c hc => h c (Text.mem_of_mem_normalizeLineEndings hc)

theorem commentStart_solid : commentStart.Solid :=
  ⟨⟨'<', ['!', '-', '-'], rfl, rfl⟩, ⟨['<', '!', '-'], '-', rfl, rfl⟩⟩

theorem commentEnd_solid : commentEnd.Solid :=
  ⟨⟨'-', ['-', '>'], rfl, rfl⟩, ⟨['-', '-'], '>', rfl, rfl⟩⟩

theorem solid_of_isClosing {marker : Text} (h : IsClosing marker) : marker.Solid := by
  obtain ⟨blanks, blanks', -, -, rfl⟩ := h
  exact ⟨⟨'<', _, rfl, rfl⟩,
    ⟨commentStart ++ blanks ++ endWord ++ blanks' ++ ['-', '-'], '>', by simp [commentEnd], rfl⟩⟩

theorem isClosing_closing : IsClosing closing := by
  refine ⟨[' '], [' '], ?_, ?_, rfl⟩
  all_goals
    intro c hc
    obtain rfl := List.mem_singleton.mp hc
    rfl

/-- The annotation and the blanks behind it hold no end of a comment. -/
theorem isBare_inner (e : Embedding label f) (h : Directives.IsBare label) :
    Directives.IsBare e.inner := by
  constructor
  · obtain ⟨value, rfl⟩ := h.1
    have hcut : Text.normalizeLineEndings (extractWord ++ (value ++ e.blanks')) =
        Text.normalizeLineEndings extractWord ++ Text.normalizeLineEndings (value ++ e.blanks') :=
      Text.normalizeLineEndings_append (by simp [extractWord])
    refine ⟨Text.normalizeLineEndings (value ++ e.blanks'), ?_⟩
    rw [inner, List.append_assoc, hcut]
    rfl
  · intro hholds
    have hwhole := Text.infix_of_infix_normalizeLineEndings (by decide) hholds
    exact h.2 (commentEnd_solid.isInfix_of_isInfix (List.forall_mem_nil _) e.isBlanks' hwhole)

theorem isOpening_of_isBare {blanks label : Text} (hblanks : IsBlanks blanks)
    (h : Directives.IsBare label) :
    IsOpening (commentStart ++ blanks ++ label ++ commentEnd) label := by
  obtain ⟨⟨value, rfl⟩, hend⟩ := h
  refine ⟨blanks, value, hblanks, rfl, rfl, ?_⟩
  intro before behind heq
  by_contra hne
  apply hend
  have hvalue : commentEnd <:+: value := by
    rcases List.append_eq_append_iff.mp heq with ⟨more, hbefore, hmore⟩ | ⟨more, hvalue, -⟩
    · -- The end found is not that of the marker, so it stops before the last sign of the marker.
      have hsign : '>' ∉ more := by
        have hshort : ∀ n < 3, '>' ∉ commentEnd.take n := by decide
        have hlength := congrArg List.length hmore
        have hbehind := List.length_pos_iff.mpr hne
        rw [List.prefix_iff_eq_take.mp ⟨behind, hmore.symm⟩]
        apply hshort
        simp only [commentEnd, List.length_append, List.length_cons, List.length_nil] at hlength
        omega
      exact Text.infix_of_infix_append_right ⟨['-', '-'], '>', rfl, hsign⟩
        ⟨before, [], by simp [hbefore]⟩
    · exact ⟨before, more, hvalue.symm⟩
  exact hvalue.trans (List.suffix_append _ _).isInfix

/-- A comment that starts before another one does not reach into it. -/
theorem commentStart_prefix_of_append {front rest : Text} (hne : front ≠ [])
    (h : commentStart <+: front ++ commentStart ++ rest) : commentStart <+: front := by
  by_cases hlong : commentStart.length ≤ front.length
  · rw [List.append_assoc] at h
    exact List.prefix_of_prefix_length_le h (List.prefix_append _ _) hlong
  · rcases front with _ | ⟨a, _ | ⟨b, _ | ⟨c, _ | ⟨d, front⟩⟩⟩⟩
    · exact absurd rfl hne
    all_goals simp [commentStart] at h hlong

theorem stands_group (e : Embedding label f) (h : Directives.IsBare label)
    (behind : Text) : e.group.Stands behind := by
  refine ⟨?_, isOpening_of_isBare (isBlanks_normalize e.isBlanks) (e.isBare_inner h), ?_,
    isClosing_closing⟩
  · rintro before rest hgap hne ⟨marker, label, tail, ⟨blanks, value, -, -, hmarker, -⟩, hopens⟩
    have hstarts : commentStart <+: rest ++ commentStart ++
        (Text.normalizeLineEndings e.blanks ++ e.inner ++ commentEnd ++ e.inside ++ closing ++
          behind) := by
      refine ⟨blanks ++ label ++ commentEnd ++ tail, ?_⟩
      rw [hmarker] at hopens
      simpa only [group, List.append_assoc] using hopens.symm
    have hrest := commentStart_prefix_of_append hne hstarts
    have hholds : commentStart <:+: [] ++ Text.normalizeLineEndings e.before ++ e.margin := by
      rw [List.nil_append]
      change Text.normalizeLineEndings e.before ++ e.margin = before ++ rest at hgap
      rw [hgap]
      exact hrest.isInfix.trans (List.suffix_append _ _).isInfix
    refine e.plain (Text.infix_of_infix_normalizeLineEndings (by decide) ?_)
    exact commentStart_solid.isInfix_of_isInfix (List.forall_mem_nil _) e.isPad.isBlank hholds
  · rintro ⟨before, rest, hinside, marker, tail, hmarker, hcloses⟩
    have hholds : marker <:+: ['\n'] ++ Text.join ['\n'] e.written ++ ('\n' :: e.margin) := by
      refine ⟨before, tail, ?_⟩
      rw [List.append_assoc, ← hcloses, ← hinside]
      rfl
    obtain ⟨front, behind', heq⟩ := (solid_of_isClosing hmarker).isInfix_of_isInfix
      (by simp [isBlank_newline]) (by simpa [isBlank_newline] using e.isPad.isBlank) hholds
    exact e.isOpen ⟨front, marker ++ behind', by rw [← List.append_assoc, heq],
      marker, behind', hmarker, rfl⟩

/-- The first span of a document with an embedded fragment is that of the fragment. -/
theorem ofText_embedding (e : Embedding label f) (h : Directives.IsBare label)
    (policy : Policy) :
    ∃ span spans, (Scan.ofText policy e.text).spans = span :: spans ∧
      span.label = Text.trim e.inner ∧ span.content = e.inside := by
  have hscan : Scan.ofText policy e.text =
      Scan.ofLines policy (Scan.lineAfter [])
        (e.group.text ++ Text.normalizeLineEndings e.behind) := by
    rw [Scan.ofText, normalize_text e h]
    rfl
  rw [hscan, Scan.ofLines_group (e.stands_group h _)]
  exact ⟨_, _, rfl, rfl, rfl⟩

theorem parse_inner (e : Embedding label f) (h : Directives.IsBare label) :
    Directives.parse (Text.trim e.inner) = Directives.parse label := by
  refine Directives.parse_trim_eq_of_words_eq (e.isBare_inner h) h ?_
  rw [inner, Text.words_normalizeLineEndings, Text.words_append_blanks _ e.isBlanks']

end Embedding

end Partials
