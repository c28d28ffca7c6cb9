import Partials.Proofs.Block.Acceptance
import Partials.Proofs.Scan.Embedding

/-!
# Extraction undoes embedding

The block that a scan and `Block.ofSpan` make of an embedded fragment has the fragment for its
content. It is one block for all documents that embed the fragment: no part of it comes from the
margin, the blanks or the texts around.
-/

namespace Partials

/-- The processor makes a block of a span with this annotation. -/
def Processor.Accepts (p : Processor) (label : Text) : Prop :=
  ∃ span origin block, span.label = label ∧ Block.ofSpan p span origin = .ok block

namespace Block

variable {f : Fragment} {margin : Text} {written : List Text}

/-- The line feeds before and behind a fragment, and the margin of the closing marker, are no part
of its body. -/
theorem bodyOf_written (hmargin : Margin.IsPad margin)
    (h : List.Forall₂ (Margin.WrittenUnder margin) f.lines written) :
    bodyOf ('\n' :: Text.join ['\n'] written ++ '\n' :: margin) = Text.join ['\n'] written := by
  obtain ⟨line, rest, hline, hne, hfirst⟩ := Margin.exists_join_eq_margin_append h
  obtain ⟨front, t, hlast, hsolid⟩ := Margin.exists_join_eq_append_solid h
  obtain ⟨pad, t', rfl, hpad, hsolid'⟩ := Margin.exists_solid_of_isLine hline hne
  have hstart : ∃ c cs, Text.join ['\n'] written = c :: cs ∧ c ≠ '\n' ∧ c ≠ '\r' := by
    have hpads : Margin.IsPad (margin ++ pad) := by
      intro c hc
      rcases List.mem_append.mp hc with hc | hc
      · exact hmargin c hc
      · exact hpad c hc
    rw [hfirst, ← List.append_assoc, List.append_assoc]
    cases hpads' : margin ++ pad with
    | nil =>
        obtain ⟨c, cs, rfl, hc⟩ := hsolid'.head
        refine ⟨c, cs ++ rest, rfl, ?_, ?_⟩
        all_goals
          rintro rfl
          cases hc
    | cons c cs =>
        refine ⟨c, cs ++ (t' ++ rest), rfl, ?_, ?_⟩
        all_goals
          rintro rfl
          rcases hpads _ (hpads' ▸ List.mem_cons_self) with heq | heq
          all_goals exact absurd heq (by decide)
  have htail : ∀ c ∈ '\n' :: margin, isBlank c = true := by
    intro c hc
    rcases List.mem_cons.mp hc with rfl | hc
    · exact isBlank_newline
    · exact hmargin.isBlank c hc
  obtain ⟨c, cs, hcons, hnewline, hreturn⟩ := hstart
  have hdrop : ('\n' :: Text.join ['\n'] written ++ '\n' :: margin).dropWhile
      (fun c => c == '\n' || c == '\r') = Text.join ['\n'] written ++ '\n' :: margin := by
    rw [hcons]
    simp [hnewline, hreturn]
  rw [bodyOf, hdrop, Text.trimEnd_append_blanks _ htail, hlast, Text.trimEnd_append_solid _ hsolid]

theorem writtenUnder_nil (line : Text) : Margin.WrittenUnder [] line line := by
  by_cases hline : line = []
  · rw [hline]
    exact .empty nofun
  · exact .text hline

/-- A block depends on its span's content only through the lines that are left of it. -/
theorem assemble_congr {o : Options} {content content' : Text} (origin : Text) (target : Target)
    (d : Directives) (wrap : Wrap.Pair)
    (h : Margin.normalizeLines o.indent (bodyOf content) =
      Margin.normalizeLines o.indent (bodyOf content')) :
    assemble o origin content target d wrap = assemble o origin content' target d wrap := by
  unfold assemble
  rw [h]

/-- However a fragment is embedded under an accepted annotation, the first span of the document
becomes one and the same block. Its content is the fragment without the margin its lines share,
which is the fragment itself if a line of it stands at the left edge. -/
theorem extraction_undoes_embedding {p : Processor}
    (hindent : ∀ c ∈ p.options.indent, isBlank c = true) {label : Text}
    (hbare : Directives.IsBare label) (haccepted : p.Accepts label) (f : Fragment)
    (origin : Text) :
    ∃ block : Block,
      (∀ (e : Embedding label f) (policy : Policy), ∃ span spans,
        (Scan.ofText policy e.text).spans = span :: spans ∧ ofSpan p span origin = .ok block) ∧
      block.content = Text.join p.options.lineSeparator
        (Margin.crop f.lines (Margin.sharedWidth? f.lines)) ∧
      (f.Flush → block.content = Text.join p.options.lineSeparator f.lines) := by
  obtain ⟨span₀, origin₀, block₀, rfl, hblock₀⟩ := haccepted
  obtain ⟨written, wrap, hwritten, hinside, hwrap, -⟩ := ofSpan_eq_ok_iff.mp hblock₀
  have hlines : ∀ {margin : Text} {written : List Text}, Margin.IsPad margin →
      List.Forall₂ (Margin.WrittenUnder margin) f.lines written →
      Margin.normalizeLines p.options.indent
          (bodyOf ('\n' :: Text.join ['\n'] written ++ '\n' :: margin)) =
        Margin.crop f.lines (Margin.sharedWidth? f.lines) := by
    intro margin written hmargin h
    rw [bodyOf_written hmargin h, Margin.normalizeLines_written hindent hmargin h]
  -- The fragment without any margin stands for all the ways to write it.
  have hplain : Margin.normalizeLines p.options.indent
        (bodyOf ('\n' :: Text.join ['\n'] f.lines ++ ['\n'])) =
      Margin.crop f.lines (Margin.sharedWidth? f.lines) :=
    hlines (List.forall_mem_nil _) (List.forall₂_same.mpr fun line _ => writtenUnder_nil line)
  have hcontent : (assemble p.options origin ('\n' :: Text.join ['\n'] f.lines ++ ['\n'])
      (Target.of p.options.flatten written) (Directives.parse span₀.label) wrap).content =
        Text.join p.options.lineSeparator
          (Margin.crop f.lines (Margin.sharedWidth? f.lines)) :=
    congrArg (Text.join p.options.lineSeparator) hplain
  refine ⟨_, ?_, hcontent, ?_⟩
  · intro e policy
    obtain ⟨span, spans, hspans, hlabel, hspan⟩ := e.ofText_embedding hbare policy
    refine ⟨span, spans, hspans, ofSpan_eq_ok_iff.mpr ⟨written, wrap, ?_⟩⟩
    rw [hlabel, hspan, e.parse_inner hbare]
    exact ⟨hwritten, hinside, hwrap,
      assemble_congr origin _ _ wrap (hplain.trans (hlines e.isPad e.isWritten).symm)⟩
  · intro hflush
    rw [hcontent, Margin.crop_sharedWidth?_of_flush hflush]

/-- An element with an empty line and an indented line in it. -/
def element : Fragment where
  lines := [['<', 'p', '>'], [], [' ', ' ', 'x'], ['<', '/', 'p', '>']]
  isLine := by
    have hopen : Text.Solid ['<', 'p', '>'] :=
      ⟨⟨'<', ['p', '>'], rfl, rfl⟩, ⟨['<', 'p'], '>', rfl, rfl⟩⟩
    have hclose : Text.Solid ['<', '/', 'p', '>'] :=
      ⟨⟨'<', ['/', 'p', '>'], rfl, rfl⟩, ⟨['<', '/', 'p'], '>', rfl, rfl⟩⟩
    have htext : Text.Solid ['x'] := ⟨⟨'x', [], rfl, rfl⟩, ⟨[], 'x', rfl, rfl⟩⟩
    intro line hline
    simp only [List.mem_cons, List.not_mem_nil, or_false] at hline
    rcases hline with rfl | rfl | rfl | rfl
    · exact .text 0 hopen (by decide)
    · exact .empty
    · exact .text 2 htext (by decide)
    · exact .text 0 hclose (by decide)
  head := ⟨_, rfl, List.cons_ne_nil _ _⟩
  last := ⟨_, rfl, List.cons_ne_nil _ _⟩

theorem element_flush : element.Flush :=
  ⟨['<', 'p', '>'], List.mem_cons_self, ⟨'<', ['p', '>'], rfl, rfl⟩, ⟨['<', 'p'], '>', rfl, rfl⟩⟩

theorem isBlanks_space : Marker.IsBlanks [' '] := by
  simp [Marker.IsBlanks, isBlank]

/-- The element in a page that is indented by a tab. -/
def tabbedPage : Embedding (toOneFile []).label element where
  before := ['a', '\n']
  margin := ['\t']
  blanks := [' ']
  blanks' := [' ']
  written := [['\t', '<', 'p', '>'], [' ', '\t'], ['\t', ' ', ' ', 'x'], ['\t', '<', '/', 'p', '>']]
  behind := ['b']
  plain := by decide
  isPad := by simp [Margin.IsPad]
  isBlanks := isBlanks_space
  isBlanks' := isBlanks_space
  isWritten := .cons (.text (List.cons_ne_nil _ _)) (.cons (.empty (by simp [Margin.IsPad]))
    (.cons (.text (List.cons_ne_nil _ _)) (.cons (.text (List.cons_ne_nil _ _)) .nil)))
  isOpen := Marker.search_closing?_eq_none_iff.mp (by decide +kernel)

theorem extraction_undoes_embedding_tabbedPage :
    tabbedPage.text = ("a\n\t<!-- extract:a -->\n\t<p>\n \t\n\t  x\n\t</p>\n" ++
      "\t<!-- endextract -->b").toList ∧
    ∃ block span spans, (Scan.ofText .discard tabbedPage.text).spans = span :: spans ∧
      ofSpan bare span [] = .ok block ∧ block.content = "<p>\n\n  x\n</p>".toList := by
  have haccepted : bare.Accepts (toOneFile []).label := ⟨_, _, _, rfl, ofSpan_toOneFile []⟩
  obtain ⟨block, hblock, -, hcontent⟩ := extraction_undoes_embedding (p := bare)
    (List.all_eq_true.mp rfl) (f := element) ⟨by decide, by decide⟩ haccepted []
  obtain ⟨span, spans, hspans, hspan⟩ := hblock tabbedPage .discard
  refine ⟨by decide +kernel, block, span, spans, hspans, hspan, ?_⟩
  rw [hcontent element_flush]
  decide +kernel

end Block

end Partials
