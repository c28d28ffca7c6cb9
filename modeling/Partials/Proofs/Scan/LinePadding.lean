import Mathlib.Data.List.Forall2
import Partials.Proofs.Directives.Entries
import Partials.Proofs.Scan.Grammar
import Partials.Proofs.Text.LinePadding

/-!
# Scanning past the spaces and tabs at the ends of lines

Markers are found in the same order whether or not the lines of a document end in spaces and tabs:
each recogniser finds in the trimmed text what it finds in the text, trimmed. A scan therefore gives
spans of the same directives and lines, whose contents differ at the ends of their lines
(`forall₂_trims`).
-/

namespace Partials

namespace Marker

/-- The marker as it is found in the text without the spaces and tabs at the ends of its lines. -/
def Found.trimLineEnds (f : Found) : Found :=
  ⟨Text.trimLineEnds false f.marker, Text.trimLineEnds false f.inner,
    Text.trimLineEnds true f.rest⟩

section

variable {pat : Text}

theorem after?_trimLineEnds (hpat : pat.Tight) (atEnd : Bool) (t : Text) :
    Text.after? pat (Text.trimLineEnds atEnd t) =
      (Text.after? pat t).map (Text.trimLineEnds atEnd) := by
  induction pat generalizing t with
  | nil => rfl
  | cons p ps ih =>
      have hp : isBlank p = false := hpat p List.mem_cons_self
      cases t with
      | nil => rfl
      | cons c cs =>
          rw [Text.after?, Text.trimLineEnds]
          split
          · next hremoved =>
            -- What is taken off is blank, and so is what comes after it.
            obtain ⟨hpad, hends⟩ := Bool.and_eq_true_iff.mp hremoved
            have hne : ∀ {d : Char}, isBlank d = true → d ≠ p := by
              rintro d hd rfl
              rw [hp] at hd
              cases hd
            rw [if_neg (hne (Text.isBlank_of_isPad hpad))]
            rcases Text.trimLineEnds_of_endsLine hends with hnil | ⟨rest, hrest⟩
            · rw [hnil]
              rfl
            · rw [hrest, Text.after?, if_neg (hne isBlank_newline)]
              rfl
          · rw [Text.after?]
            split
            · exact ih (fun c hc => hpat c (List.mem_cons_of_mem _ hc)) cs
            · rfl

theorem cut?_of_after? (hne : pat ≠ []) {t rest : Text} (h : Text.after? pat t = some rest) :
    cut? pat t = some ([], rest) := by
  cases t with
  | nil =>
      obtain ⟨p, ps, rfl⟩ := List.exists_cons_of_ne_nil hne
      cases h
  | cons c cs => rw [cut?, h]

theorem endsLine_tight_append (hpat : pat.Tight) (hne : pat ≠ []) (atEnd : Bool) (t : Text) :
    Text.endsLine atEnd (pat ++ t) = false := by
  obtain ⟨p, ps, rfl⟩ := List.exists_cons_of_ne_nil hne
  exact Text.endsLine_cons_of_not_isBlank (hpat p List.mem_cons_self)

theorem cut?_trimLineEnds (hpat : pat.Tight) (hne : pat ≠ []) (atEnd : Bool) (t : Text) :
    cut? pat (Text.trimLineEnds atEnd t) =
      (cut? pat t).map fun (before, rest) =>
        (Text.trimLineEnds false before, Text.trimLineEnds atEnd rest) := by
  induction t with
  | nil => simp [cut?, Text.trimLineEnds, hne]
  | cons c cs ih =>
      have hafter := after?_trimLineEnds hpat atEnd (c :: cs)
      cases hfound : Text.after? pat (c :: cs) with
      | some rest =>
          rw [hfound] at hafter
          rw [cut?_of_after? hne hfound, cut?_of_after? hne hafter]
          rfl
      | none =>
          rw [hfound] at hafter
          cases hcut : cut? pat cs with
          | none =>
              rw [hcut] at ih
              rw [cut?, hfound, hcut]
              rw [Text.trimLineEnds] at hafter ⊢
              split
              · exact ih
              · next hkept =>
                rw [if_neg hkept] at hafter
                rw [cut?, hafter, ih]
                rfl
          | some found =>
              obtain ⟨before, rest⟩ := found
              rw [hcut] at ih
              rw [cut?, hfound, hcut]
              rw [cut?_eq_some hcut, List.append_assoc] at ih hafter ⊢
              rcases Text.trimLineEnds_cons_cases c before
                (endsLine_tight_append hpat hne atEnd rest) with ⟨htext, hgap⟩ | ⟨htext, hgap⟩
              · simp only [Option.map_some, htext, hgap, ih]
              · rw [htext] at hafter
                simp only [Option.map_some, Option.map_none, htext, hgap, cut?, hafter, ih]

end

/-- What is left of a marker depends on the marker alone. -/
theorem take_trimLineEnds {t front rest : Text} (ht : t = front ++ commentEnd ++ rest) :
    (Text.trimLineEnds true t).take
        ((Text.trimLineEnds true t).length - (Text.trimLineEnds true rest).length) =
      Text.trimLineEnds false (t.take (t.length - rest.length)) := by
  have hcut : ∀ (atEnd : Bool) (rest : Text),
      Text.trimLineEnds atEnd (front ++ commentEnd ++ rest) =
        Text.trimLineEnds false (front ++ ['-', '-']) ++ '>' :: Text.trimLineEnds atEnd rest := by
    intro atEnd rest
    have hsign : isBlank '>' = false := rfl
    rw [← Text.trimLineEnds_append_cons hsign, List.append_assoc, List.append_assoc]
    rfl
  have hmarker := hcut false []
  rw [List.append_nil] at hmarker
  have htake : ∀ m r : Text, (m ++ r).take ((m ++ r).length - r.length) = m := by
    intro m r
    simp
  rw [ht, htake, hmarker, hcut, List.append_cons]
  exact htake _ _

theorem opening?_trimLineEnds (t : Text) :
    opening? (Text.trimLineEnds true t) = (opening? t).map Found.trimLineEnds := by
  have hstart : commentStart.Tight := by decide
  have hword : extractWord.Tight := by decide
  have hend : commentEnd.Tight := by decide
  simp only [opening?, Option.bind_eq_bind, after?_trimLineEnds hstart]
  cases hbody : Text.after? commentStart t with
  | none => rfl
  | some body =>
      simp only [Option.map_some, Option.bind_some, Text.trimStart_trimLineEnds,
        after?_trimLineEnds hword]
      cases hvalue : Text.after? extractWord (Text.trimStart body) with
      | none => rfl
      | some value =>
          simp only [Option.map_some, Option.bind_some,
            cut?_trimLineEnds hend (List.cons_ne_nil _ _)]
          cases hcut : cut? commentEnd value with
          | none => rfl
          | some found =>
              obtain ⟨before, rest⟩ := found
              have ht : t = commentStart ++ Text.lead body ++ extractWord ++ before ++
                  commentEnd ++ rest := by
                have hlead := Text.lead_append_trimStart body
                rw [Text.after?_eq_some_iff.mp hvalue, cut?_eq_some hcut] at hlead
                rw [Text.after?_eq_some_iff.mp hbody]
                refine (congrArg (commentStart ++ ·) hlead).symm.trans ?_
                simp only [List.append_assoc]
              simp only [Option.map_some, Option.bind_some, Found.trimLineEnds,
                take_trimLineEnds ht, Text.trimLineEnds_tight_append hword]

theorem closing?_trimLineEnds (t : Text) :
    closing? (Text.trimLineEnds true t) = (closing? t).map Found.trimLineEnds := by
  have hstart : commentStart.Tight := by decide
  have hword : endWord.Tight := by decide
  have hend : commentEnd.Tight := by decide
  simp only [closing?, Option.bind_eq_bind, after?_trimLineEnds hstart]
  cases hbody : Text.after? commentStart t with
  | none => rfl
  | some body =>
      simp only [Option.map_some, Option.bind_some, Text.trimStart_trimLineEnds,
        after?_trimLineEnds hword]
      cases htail : Text.after? endWord (Text.trimStart body) with
      | none => rfl
      | some tail =>
          simp only [Option.map_some, Option.bind_some, Text.trimStart_trimLineEnds,
            after?_trimLineEnds hend]
          cases hrest : Text.after? commentEnd (Text.trimStart tail) with
          | none => rfl
          | some rest =>
              have ht : t = commentStart ++ Text.lead body ++ endWord ++ Text.lead tail ++
                  commentEnd ++ rest := by
                have hlead := Text.lead_append_trimStart body
                have hlead' := Text.lead_append_trimStart tail
                rw [Text.after?_eq_some_iff.mp hrest] at hlead'
                rw [Text.after?_eq_some_iff.mp htail, ← hlead'] at hlead
                rw [Text.after?_eq_some_iff.mp hbody]
                refine (congrArg (commentStart ++ ·) hlead).symm.trans ?_
                simp only [List.append_assoc]
              simp only [Option.map_some, Option.bind_some, Found.trimLineEnds,
                take_trimLineEnds ht, Text.trimLineEnds_of_tight hword]

theorem search_trimLineEnds {marker? : Text → Option Found}
    (hmarker : ∀ t, marker? (Text.trimLineEnds true t) = (marker? t).map Found.trimLineEnds)
    (hstart : ∀ {t f}, marker? t = some f → ∃ cs, t = '<' :: cs) (t : Text) :
    search marker? (Text.trimLineEnds true t) =
      (search marker? t).map fun (gap, f) => (Text.trimLineEnds false gap, f.trimLineEnds) := by
  induction t with
  | nil => rfl
  | cons c cs ih =>
      have hhere := hmarker (c :: cs)
      cases hfound : marker? (c :: cs) with
      | some f =>
          obtain ⟨_, heq⟩ := hstart hfound
          obtain rfl : c = '<' := (List.cons.inj heq).1
          rw [hfound, Text.trimLineEnds_cons_of_not_isPad rfl] at hhere
          rw [Text.trimLineEnds_cons_of_not_isPad rfl, search, hhere, search, hfound]
          rfl
      | none =>
          rw [hfound] at hhere
          cases hsearch : search marker? cs with
          | none =>
              rw [hsearch] at ih
              rw [search, hfound, hsearch]
              rw [Text.trimLineEnds] at hhere ⊢
              split
              · exact ih
              · next hkept =>
                rw [if_neg hkept] at hhere
                rw [search, hhere, ih]
                rfl
          | some found =>
              obtain ⟨gap, f⟩ := found
              obtain ⟨tail, hcs, hf, -⟩ := search_eq_some hsearch
              obtain ⟨rest, rfl⟩ := hstart hf
              have hends : Text.endsLine true ('<' :: rest) = false :=
                Text.endsLine_cons_of_not_isBlank rfl
              rw [hsearch] at ih
              rw [search, hfound, hsearch]
              rw [hcs] at ih hhere ⊢
              rcases Text.trimLineEnds_cons_cases c gap hends with ⟨htext, hgap⟩ | ⟨htext, hgap⟩
              · simp only [Option.map_some, htext, hgap, ih]
              · rw [htext] at hhere
                simp only [Option.map_some, Option.map_none, htext, hgap, search, hhere, ih]

theorem eq_cons_of_opening? {t : Text} {f : Found} (h : opening? t = some f) :
    ∃ cs, t = '<' :: cs := by
  obtain ⟨ht, blanks, value, -, -, hmarker⟩ := opening?_eq_some h
  rw [ht, hmarker]
  exact ⟨_, rfl⟩

theorem eq_cons_of_closing? {t : Text} {f : Found} (h : closing? t = some f) :
    ∃ cs, t = '<' :: cs := by
  obtain ⟨ht, blanks, blanks', -, -, hmarker⟩ := closing?_eq_some h
  rw [ht, hmarker]
  exact ⟨_, rfl⟩

theorem IsOpening.isBare {marker annotation : Text} (h : IsOpening marker annotation) :
    Directives.IsBare annotation := by
  refine ⟨?_, h.not_commentEnd_isInfix⟩
  obtain ⟨blanks, value, -, rfl, -⟩ := h
  exact List.prefix_append extractWord value

end Marker

/-- The second span says and holds what the first one does, but for the spaces and tabs at the ends
of its lines. The last of these lines ends where the span does only if the document ends there. -/
structure Span.Trims (span span' : Span) : Prop where
  parse_eq : Directives.parse span'.label = Directives.parse span.label
  content_eq : span'.content = Text.trimLineEnds (!span.terminated) span.content
  startLine_eq : span'.startLine = span.startLine
  terminated_eq : span'.terminated = span.terminated

namespace Scan

open Marker

/-- Blanks between its words say nothing in an annotation. -/
theorem parse_trim_trimLineEnds {t gap : Text} {f : Found}
    (h : search opening? t = some (gap, f)) :
    Directives.parse (Text.trim (Text.trimLineEnds false f.inner)) =
      Directives.parse (Text.trim f.inner) := by
  have htrimmed := search_trimLineEnds opening?_trimLineEnds eq_cons_of_opening? t
  rw [h] at htrimmed
  have hbare := (search_opening?_eq_some_iff.mp h).2.1.isBare
  have hbare' : Directives.IsBare (Text.trimLineEnds false f.inner) :=
    (search_opening?_eq_some_iff.mp htrimmed).2.1.isBare
  rw [Directives.parse_trim_eq_of_words_eq hbare' hbare' rfl,
    Directives.parse_trim_eq_of_words_eq hbare hbare' Text.words_trimLineEnds.symm]

/-- Line by line the scans agree, wherever the scan starts. -/
theorem ofLines_trimLineEnds (policy : Policy) (line : Nat) (t : Text) :
    List.Forall₂ Span.Trims (ofLines policy line t).spans
        (ofLines policy line (Text.trimLineEnds true t)).spans ∧
      (ofLines policy line (Text.trimLineEnds true t)).unterminated =
        (ofLines policy line t).unterminated := by
  -- On the length of the text: what follows a closed span is shorter.
  induction hlength : t.length using Nat.strongRecOn generalizing line t with
  | ind n ih =>
      have hopening := search_trimLineEnds opening?_trimLineEnds eq_cons_of_opening? t
      cases hopened : search opening? t with
      | none =>
          rw [hopened] at hopening
          rw [ofLines_of_none hopened, ofLines_of_none hopening]
          exact ⟨.nil, rfl⟩
      | some found =>
          obtain ⟨gap, opened⟩ := found
          rw [hopened] at hopening
          have hparse := parse_trim_trimLineEnds hopened
          have hclosing := search_trimLineEnds closing?_trimLineEnds eq_cons_of_closing? opened.rest
          cases hclosed : search closing? opened.rest with
          | none =>
              rw [hclosed] at hclosing
              rw [ofLines_of_dangling hopened hclosed, ofLines_of_dangling hopening hclosing]
              simp only [Found.trimLineEnds, Text.newlines_trimLineEnds]
              cases policy with
              | discard => exact ⟨.nil, trivial⟩
              | closeAtEnd => exact ⟨.cons ⟨hparse, rfl, rfl, rfl⟩ .nil, trivial⟩
          | some found =>
              obtain ⟨content, closed⟩ := found
              rw [hclosed] at hclosing
              rw [ofLines_of_closed hopened hclosed, ofLines_of_closed hopening hclosing]
              simp only [Found.trimLineEnds, Text.newlines_trimLineEnds]
              obtain ⟨hspans, hunterminated⟩ :=
                ih closed.rest.length (hlength ▸ rest_lt hopened hclosed) _ closed.rest rfl
              exact ⟨.cons ⟨hparse, rfl, rfl, rfl⟩ hspans, hunterminated⟩

theorem forall₂_trims (policy : Policy) {t : Text} (hreturn : '\r' ∉ t) :
    List.Forall₂ Span.Trims (ofText policy t).spans (ofText policy (Text.trimLines t)).spans ∧
      (ofText policy (Text.trimLines t)).unterminated = (ofText policy t).unterminated := by
  have hreturn' : '\r' ∉ Text.trimLineEnds true t := fun hmem =>
    hreturn (Text.trimLineEnds_sublist.subset hmem)
  unfold ofText
  rw [Text.trimLines_eq, Text.normalizeLineEndings_of_not_mem hreturn,
    Text.normalizeLineEndings_of_not_mem hreturn']
  exact ofLines_trimLineEnds policy 1 t

end Scan

end Partials
