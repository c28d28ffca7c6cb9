import Partials.Proofs.Block.Acceptance
import Partials.Proofs.Margin.Lines
import Partials.Proofs.Scan.LinePadding

/-!
# Blocks of pages whose lines end in spaces and tabs

The spaces and tabs at the ends of a page's lines have no say in which blocks are read off it and in
what becomes of them, with one exception. A content is freed of the line feeds at its start before
its lines are freed of the blanks at their ends, so a line of spaces and tabs before the first text
keeps its place as an empty line, and with it the empty lines behind it (`ofSpan_trimLines`).
-/

namespace Partials.Block

theorem bodyOf_of_return_not_mem {content : Text} (h : '\r' ∉ content) :
    bodyOf content = Text.trimEnd (content.dropWhile (· == '\n')) := by
  unfold bodyOf
  induction content with
  | nil => rfl
  | cons c cs ih =>
      have hc : (c == '\r') = false := beq_eq_false_iff_ne.mpr (List.ne_of_not_mem_cons h).symm
      rw [List.dropWhile_cons, List.dropWhile_cons, hc, Bool.or_false]
      split
      · exact ih (List.not_mem_of_not_mem_cons h)
      · rfl

theorem bodyOf_of_all_isBlank {content : Text} (h : content.all isBlank = true) :
    bodyOf content = [] :=
  Text.trimEnd_blanks fun c hc => List.all_eq_true.mp h c (List.dropWhile_subset _ hc)

/-- Trimming the lines of a content takes the empty lines off its body that come from lines of
spaces and tabs before its text. -/
theorem normalizeLines_bodyOf {content : Text} (hreturn : '\r' ∉ content) (atEnd : Bool)
    (indent : Text) :
    Margin.normalizeLines indent (bodyOf content) =
      List.replicate (Text.paddedLines content) [] ++
        Margin.normalizeLines indent (bodyOf (Text.trimLineEnds atEnd content)) := by
  have hreturn' : '\r' ∉ Text.trimLineEnds atEnd content := fun hmem =>
    hreturn (Text.trimLineEnds_sublist.subset hmem)
  by_cases hblank : content.all isBlank = true
  · have hblank' : (Text.trimLineEnds atEnd content).all isBlank = true :=
      List.all_eq_true.mpr fun c hc =>
        List.all_eq_true.mp hblank c (Text.trimLineEnds_sublist.subset hc)
    rw [bodyOf_of_all_isBlank hblank, bodyOf_of_all_isBlank hblank', Text.paddedLines, if_pos hblank]
    rfl
  · rw [Bool.not_eq_true] at hblank
    obtain ⟨rest, hsolid, htrimmed, hrest⟩ := Text.dropWhile_trimLineEnds hblank atEnd
    apply Margin.normalizeLines_of_map_trimEnd
    rw [bodyOf_of_return_not_mem hreturn, bodyOf_of_return_not_mem hreturn', hrest,
      ← Text.map_trimEnd_split_trimLineEnds false, ← Text.trimEnd_trimLineEnds atEnd, htrimmed,
      Text.trimEnd_append_of_exists _ hsolid, Text.split_replicate_append, List.map_append,
      List.map_replicate]
    rfl

/-- The block made of other lines in the given wrap. -/
def withLines (o : Options) (wrap : Wrap.Pair) (lines : List Text) (b : Block) : Block :=
  let content := Text.join o.lineSeparator lines
  let view := renderView o wrap lines
  let template := renderTemplate o b.directives.attributes lines
  { b with
    id := Checksum.ofParts
      (identityParts b.destination b.directives.attributes content view template)
    content, view, template }

/-- The outcomes are one issue, or blocks of which the first has `padded` empty lines more at its
start. -/
inductive Padded (o : Options) (padded : Nat) : Except Issue Block → Except Issue Block → Prop
  | refused (issue : Issue) : Padded o padded (.error issue) (.error issue)
  | accepted {block : Block} {wrap : Wrap.Pair} (lines : List Text)
      (hwrap : block.directives.get? Directives.wrapKey = some (.wrap wrap)) :
      Padded o padded (.ok (block.withLines o wrap (List.replicate padded [] ++ lines)))
        (.ok (block.withLines o wrap lines))

theorem Padded.eq {o : Options} {outcome outcome' : Except Issue Block}
    (h : Padded o 0 outcome outcome') : outcome' = outcome := by
  cases h with
  | refused issue => rfl
  | accepted lines hwrap => rfl

theorem assemble_eq_withLines (o : Options) (origin content content' : Text) (target : Target)
    (d : Directives) (wrap : Wrap.Pair) :
    assemble o origin content target d wrap =
      (assemble o origin content' target d wrap).withLines o wrap
        (Margin.normalizeLines o.indent (bodyOf content)) := rfl

theorem padded_assemble {o : Options} {content content' : Text} {n : Nat}
    (h : Margin.normalizeLines o.indent (bodyOf content) =
      List.replicate n [] ++ Margin.normalizeLines o.indent (bodyOf content'))
    (origin : Text) (target : Target) (d : Directives) (wrap : Wrap.Pair) :
    Padded o n (.ok (assemble o origin content target d wrap))
      (.ok (assemble o origin content' target d wrap)) := by
  have hwrap : (assemble o origin content' target d wrap).directives.get? Directives.wrapKey =
      some (.wrap wrap) :=
    (Directives.get?_insert _ _ _ _).trans (if_pos rfl)
  have hmore := assemble_eq_withLines o origin content content' target d wrap
  have hself := assemble_eq_withLines o origin content' content' target d wrap
  rw [h] at hmore
  rw [hmore]
  generalize assemble o origin content' target d wrap = block at hwrap hself ⊢
  have hpadded : Padded o n _ (.ok (block.withLines o wrap _)) :=
    .accepted (Margin.normalizeLines o.indent (bodyOf content')) hwrap
  rwa [← hself] at hpadded

theorem padded_of_trims {span span' : Span} (h : span.Trims span') (hreturn : '\r' ∉ span.content)
    (p : Processor) (origin : Text) :
    Padded p.options (Text.paddedLines span.content) (ofSpan p span origin)
      (ofSpan p span' origin) := by
  simp only [ofSpan, h.parse_eq, h.startLine_eq]
  split
  · exact .refused _
  · split
    · split
      · exact .refused _
      · apply padded_assemble
        rw [h.content_eq]
        exact normalizeLines_bodyOf hreturn _ _
    · exact .refused _

/-- Without the spaces and tabs at the ends of its lines a document has as many spans, on the same
lines, and with the same outcomes: one issue or one block for a span and its counterpart, but for
empty lines at the start of the block where the span has lines of spaces and tabs before its
text. -/
theorem ofSpan_trimLines {t : Text} (hreturn : '\r' ∉ t) (policy : Policy) :
    List.Forall₂ (fun span span' => span'.startLine = span.startLine ∧
        ∀ (p : Processor) (origin : Text),
          Padded p.options (Text.paddedLines span.content) (ofSpan p span origin)
            (ofSpan p span' origin) ∧
          (Text.paddedLines span.content = 0 → ofSpan p span' origin = ofSpan p span origin))
      (Scan.ofText policy t).spans (Scan.ofText policy (Text.trimLines t)).spans ∧
    (Scan.ofText policy (Text.trimLines t)).unterminated = (Scan.ofText policy t).unterminated := by
  obtain ⟨htrims, hunterminated⟩ := Scan.forall₂_trims policy hreturn
  have hcontents : ∀ span ∈ (Scan.ofText policy t).spans, '\r' ∉ span.content :=
    fun span hspan hmem => hreturn (Scan.mem_of_mem_content hspan hmem)
  have hspans := (List.forall₂_and_left _ _).mpr ⟨hcontents, htrims⟩
  refine ⟨hspans.imp ?_, hunterminated⟩
  rintro span span' ⟨hcontent, htrim⟩
  refine ⟨htrim.startLine_eq, fun p origin => ?_⟩
  have hpadded := padded_of_trims htrim hcontent p origin
  refine ⟨hpadded, fun hzero => ?_⟩
  rw [hzero] at hpadded
  exact hpadded.eq

/-- Lines that end in spaces and tabs in the marker, behind it, in the content and behind the
block. -/
def looseText : Text :=
  "<!-- extract:a.html \t\nname:B -->\n  x \t\n \n  y <!-- endextract --> \n".toList

theorem ofSpan_trimLines_looseText :
    '\r' ∉ looseText ∧ Text.trimLines looseText ≠ looseText ∧
    ∃ span span', (Scan.ofText .discard looseText).spans = [span] ∧
      (Scan.ofText .discard (Text.trimLines looseText)).spans = [span'] ∧ span' ≠ span ∧
      ofSpan bare span' [] = ofSpan bare span [] := by
  have hreturn : '\r' ∉ looseText := by decide
  have hspans : (Scan.ofText .discard looseText).spans =
        [⟨"extract:a.html \t\nname:B".toList, "\n  x \t\n \n  y ".toList, 1, 5, true⟩] ∧
      (Scan.ofText .discard (Text.trimLines looseText)).spans =
        [⟨"extract:a.html\nname:B".toList, "\n  x\n\n  y ".toList, 1, 5, true⟩] := by
    decide +kernel
  obtain ⟨houtcomes, -⟩ := ofSpan_trimLines hreturn .discard
  rw [hspans.1, hspans.2] at houtcomes
  cases houtcomes with
  | cons hspan _ =>
      refine ⟨hreturn, by decide +kernel, _, _, hspans.1, hspans.2, by decide, ?_⟩
      exact ((hspan.2 bare []).2 (by decide +kernel))

/-- A space behind the opening marker keeps the rest of its line as an empty line of the block. -/
def paddedText : Text := "<!-- extract:a.html --> \nx<!-- endextract -->".toList

theorem paddedText_keeps_line :
    ((Scan.ofText .discard paddedText).spans.map fun span =>
        (ofSpan bare span []).toOption.map Block.content) = [some "\nx".toList] ∧
      ((Scan.ofText .discard (Text.trimLines paddedText)).spans.map fun span =>
        (ofSpan bare span []).toOption.map Block.content) = [some "x".toList] := by
  decide +kernel

end Partials.Block
