import Partials.Proofs.Inventory.Accounting
import Partials.Proofs.Inventory.Retry

/-!
# Feeding a document again

A call that succeeds leaves each valid block of its document taken: its identity or its destination
belongs to an item, and no later call gives either back. Feeding the document again therefore
accepts nothing and writes nothing, whatever the sink would do: `addDocument_refed`.
-/

namespace Partials

namespace Verdict

theorem items_map_error (issues : List Issue) :
    items (issues.map Except.error) = [] := by
  induction issues with
  | nil => rfl
  | cons issue issues ih => exact ih

theorem issues_map_error (issues' : List Issue) :
    issues (issues'.map Except.error) = issues' := by
  induction issues' with
  | nil => rfl
  | cons issue issues' ih => exact congrArg (issue :: ·) ih

/-- Of the issues that spans can have, those that stand for no repeat are decided by the spans. -/
theorem filter_not_isRepeat_issues {p : Processor} {origin : Text} {spans : List Span}
    {verdicts : List Verdict} (h : List.Forall₂ (Judges p origin) spans verdicts) :
    (issues verdicts).filter (!·.isRepeat) =
      issues (spans.map fun span => Block.ofSpan p span origin) := by
  induction h with
  | nil => rfl
  | @cons span verdict spans verdicts hverdict _ ih =>
      rw [List.map_cons]
      cases hverdict with
      | accepted hspan =>
          rw [hspan, issues_ok, issues_ok]
          exact ih
      | invalid hspan =>
          have hkept := Block.not_isRepeat_of_ofSpan_eq_error hspan
          rw [hspan, issues_error, issues_error, List.filter_cons_of_pos (by simp [hkept]), ih]
      | duplicate hspan =>
          rw [hspan, issues_ok, issues_error, List.filter_cons_of_neg (by simp [Issue.isRepeat])]
          exact ih
      | conflict hspan =>
          rw [hspan, issues_ok, issues_error, List.filter_cons_of_neg (by simp [Issue.isRepeat])]
          exact ih

end Verdict

namespace Builder

/-- The issues of the spans of a document that have no valid block, in their order. -/
def rejections (p : Processor) (document : Document) : List Issue :=
  Verdict.issues ((Scan.ofText p.options.unterminated document.text).spans.map fun span =>
    Block.ofSpan p span document.origin)

/-- The issues of a report that stand for no repeat: the notice about a marker that is never closed
and the rejections. -/
def lastingIssues (p : Processor) (document : Document) : List Issue :=
  (notice? p.options.unterminated
    (Scan.ofText p.options.unterminated document.text)).toList ++ rejections p document

theorem filter_not_isRepeat_notice? (policy : Policy) (scan : Scan) :
    (notice? policy scan).toList.filter (!·.isRepeat) = (notice? policy scan).toList := by
  unfold notice?
  cases scan.unterminated with
  | none => rfl
  | some line => rfl

/-- The report made of verdicts of a document's spans. -/
theorem filter_not_isRepeat_report {p : Processor} {document : Document} {r : Report}
    {verdicts : List Verdict}
    (hjudged : List.Forall₂ (Verdict.Judges p document.origin)
      (Scan.ofText p.options.unterminated document.text).spans verdicts)
    (hreport : r = verdicts.foldl Report.enter
      (openReport p.options.unterminated document
        (Scan.ofText p.options.unterminated document.text))) :
    r.issues.filter (!·.isRepeat) = lastingIssues p document := by
  rw [hreport, Report.foldl_enter, openReport_eq, List.filter_append,
    filter_not_isRepeat_notice?, Verdict.filter_not_isRepeat_issues hjudged]
  rfl

variable {σ ε : Type}

/-- The second builder works as the first one does, and what the first has taken is not free in
it. -/
structure KeepsTaken (b b' : Builder) : Prop where
  processor_eq : b'.processor = b.processor
  isFree : ∀ {block : Block}, b'.IsFree block → b.IsFree block

theorem KeepsTaken.refl (b : Builder) : b.KeepsTaken b := ⟨rfl, id⟩

theorem KeepsTaken.trans {b mid b' : Builder} (h : b.KeepsTaken mid) (h' : mid.KeepsTaken b') :
    b.KeepsTaken b' :=
  ⟨h'.processor_eq.trans h.processor_eq, fun hfree => h.isFree (h'.isFree hfree)⟩

theorem keepsTaken_feed (b : Builder) (blocks : List Block) : b.KeepsTaken (b.feed blocks) :=
  ⟨processor_feed b blocks, isFree_of_isFree_feed⟩

theorem keepsTaken_countValid (b : Builder) : b.KeepsTaken b.countValid := ⟨rfl, id⟩

/-- A call gives nothing back, whether it succeeds or fails. -/
theorem keepsTaken_of_addDocument {sink : Sink (StateM σ) ε} {b b' : Builder}
    {document : Document} {outcome : Except ε Report} {s s' : σ}
    (h : b.addDocument sink document s = ((b', outcome), s')) : b.KeepsTaken b' := by
  cases outcome with
  | ok report =>
      rw [(feedsAll_of_addDocument_ok h).1]
      exact keepsTaken_feed b _
  | error e =>
      obtain ⟨before, block, after, hfails⟩ := failsAt_of_addDocument_error h
      rw [hfails.builder_eq]
      exact (keepsTaken_feed b before).trans (keepsTaken_countValid _)

/-- What a call that returned the report leaves behind in later builders. -/
structure HasFed (b : Builder) (document : Document) (report : Report) : Prop where
  taken : ∀ block ∈ validOf b.processor document, ¬ b.IsFree block
  lasting : report.issues.filter (!·.isRepeat) = lastingIssues b.processor document

theorem HasFed.mono {b b' : Builder} {document : Document} {report : Report}
    (h : b.HasFed document report) (hlater : b.KeepsTaken b') : b'.HasFed document report := by
  constructor
  · intro block hblock hfree
    rw [hlater.processor_eq] at hblock
    exact h.taken block hblock (hlater.isFree hfree)
  · rw [hlater.processor_eq]
    exact h.lasting

theorem hasFed_of_addDocument {sink : Sink (StateM σ) ε} {b b' : Builder} {document : Document}
    {report : Report} {s s' : σ}
    (h : b.addDocument sink document s = ((b', .ok report), s')) : b'.HasFed document report := by
  have hprocessor : b'.processor = b.processor := (keepsTaken_of_addDocument h).processor_eq
  obtain ⟨verdicts, hjudged, -, hreport⟩ := addSpans_verdicts h
  constructor
  · intro block hblock
    rw [hprocessor] at hblock
    rw [(feedsAll_of_addDocument_ok h).1]
    exact not_isFree_feed_of_mem b hblock
  · rw [hprocessor]
    exact filter_not_isRepeat_report hjudged hreport

/-- Calls that succeeded in a run are still known at its end. -/
theorem hasFed_of_addDocuments {sink : Sink (StateM σ) ε} {b b' : Builder}
    {documents : List Document} {outcomes : List (Except ε Report)} {s s' : σ}
    (h : addDocuments sink b documents s = ((b', outcomes), s')) :
    b.KeepsTaken b' ∧ ∀ document report,
      (document, Except.ok report) ∈ documents.zip outcomes → b'.HasFed document report := by
  induction documents generalizing b outcomes s with
  | nil =>
      obtain ⟨hfed, -⟩ := Prod.mk.inj h
      obtain ⟨rfl, rfl⟩ := Prod.mk.inj hfed
      refine ⟨KeepsTaken.refl b, ?_⟩
      intro document report hmem
      cases hmem
  | cons first documents ih =>
      cases hcall : b.addDocument sink first s with
      | mk fed mid =>
          obtain ⟨next, outcome⟩ := fed
          cases hrest : addDocuments sink next documents mid with
          | mk fed last =>
              obtain ⟨final, outcomes'⟩ := fed
              rw [addDocuments, bind_apply, hcall] at h
              simp only [bind_apply, hrest] at h
              obtain ⟨hfed, rfl⟩ := Prod.mk.inj h
              obtain ⟨rfl, rfl⟩ := Prod.mk.inj hfed
              obtain ⟨hlater, hknown⟩ := ih hrest
              refine ⟨(keepsTaken_of_addDocument hcall).trans hlater, ?_⟩
              intro document report hmem
              rcases List.mem_cons.mp hmem with hfirst | hmem
              · obtain ⟨rfl, rfl⟩ := Prod.mk.inj hfirst
                exact (hasFed_of_addDocument hcall).mono hlater
              · exact hknown document report hmem

/-- The issue of a span whose block, if it has one, is not free. -/
def refusal (b : Builder) (origin : Text) (span : Span) : Issue :=
  match Block.ofSpan b.processor span origin with
  | .error issue => issue
  | .ok block =>
    if b.seen.contains block.id then .duplicate span.startLine block.destination block.id
    else .conflict span.startLine block.destination

theorem judges_refusal (b : Builder) (origin : Text) (span : Span) :
    Verdict.Judges b.processor origin span (.error (b.refusal origin span)) := by
  unfold refusal
  cases hspan : Block.ofSpan b.processor span origin with
  | error issue => exact .invalid hspan
  | ok block =>
      simp only
      split
      · exact .duplicate hspan
      · exact .conflict hspan

theorem forall₂_judges_refusal (b : Builder) (origin : Text) (spans : List Span) :
    List.Forall₂ (Verdict.Judges b.processor origin) spans
      ((spans.map (b.refusal origin)).map Except.error) := by
  induction spans with
  | nil => exact .nil
  | cons span spans ih => exact .cons (judges_refusal b origin span) ih

theorem refusal_of_error {b : Builder} {origin : Text} {span : Span} {issue : Issue}
    (hspan : Block.ofSpan b.processor span origin = .error issue) :
    b.refusal origin span = issue := by
  simp only [refusal, hspan]

theorem objection?_of_not_isFree {b : Builder} {origin : Text} {span : Span} {block : Block}
    (hspan : Block.ofSpan b.processor span origin = .ok block) (htaken : ¬ b.IsFree block) :
    b.objection? span.startLine block = some (b.refusal origin span) := by
  simp only [refusal, hspan, objection?, List.contains_iff_mem]
  by_cases hid : block.id ∈ b.seen
  · rw [if_pos hid, if_pos hid]
  · have hdestination : block.destination ∈ b.owners.map Prod.fst := by
      by_contra hnot
      exact htaken ⟨hid, hnot⟩
    rw [if_neg hid, if_neg hid, if_pos hdestination]

variable {m : Type → Type} [Monad m]

/-- Spans of which no block is free have no effect but to be counted and reported. -/
theorem addSpans_of_taken (sink : Sink m ε) (origin : Text) (b : Builder) (r : Report)
    (spans : List Span)
    (h : ∀ block ∈ (Block.offers b.processor origin spans).map Prod.snd, ¬ b.IsFree block) :
    addSpans sink origin b r spans =
      pure (b.recount ((Block.offers b.processor origin spans).map Prod.snd).length,
        .ok (((spans.map (b.refusal origin)).map Except.error).foldl Report.enter r)) := by
  induction spans generalizing b r with
  | nil => rfl
  | cons span spans ih =>
      cases hspan : Block.ofSpan b.processor span origin with
      | error issue =>
          rw [Block.offers_cons_of_error hspan] at h ⊢
          rw [addSpans_of_error hspan, ih b _ h, List.map_cons, refusal_of_error hspan]
          rfl
      | ok block =>
          rw [Block.offers_cons_of_ok hspan, List.map_cons] at h ⊢
          have htaken := h block List.mem_cons_self
          have hrest : ∀ other ∈ (Block.offers b.processor origin spans).map Prod.snd,
              ¬ b.countValid.IsFree other := fun other hother =>
            h other (List.mem_cons_of_mem _ hother)
          rw [addSpans_of_objection hspan (objection?_of_not_isFree hspan htaken),
            ih b.countValid _ hrest, List.length_cons, Nat.add_comm, ← recount_recount]
          rfl

/-- A document that was fed with success stays known, whatever is fed before and after it and
whichever of these calls fail: feeding it again succeeds, accepts no block, asks nothing of the sink
and counts the valid blocks. Each span then has an issue of its own, and those that stand for no
repeat are the ones of the first report. -/
theorem addDocument_refed {earlier : Sink (StateM σ) ε} {start b : Builder}
    {history : List Document} {outcomes : List (Except ε Report)} {s s' : σ}
    (hreached : addDocuments earlier start history s = ((b, outcomes), s'))
    {document : Document} {report : Report}
    (hfed : (document, Except.ok report) ∈ history.zip outcomes) {δ : Type} (sink : Sink m δ) :
    ∃ again : Report,
      let policy := b.processor.options.unterminated
      let scan := Scan.ofText policy document.text
      b.addDocument sink document =
        pure ({ b with total := b.total + (validOf b.processor document).length }, .ok again) ∧
      again.added = 0 ∧
      again.issues =
        (notice? policy scan).toList ++ scan.spans.map (b.refusal document.origin) ∧
      again.issues.filter (!·.isRepeat) = lastingIssues b.processor document ∧
      report.issues.filter (!·.isRepeat) = lastingIssues b.processor document := by
  obtain ⟨-, hknown⟩ := hasFed_of_addDocuments hreached
  have hbefore : b.HasFed document report := hknown document report hfed
  have hagain := addSpans_of_taken sink document.origin b
    (openReport b.processor.options.unterminated document
      (Scan.ofText b.processor.options.unterminated document.text)) _ hbefore.taken
  refine ⟨_, hagain, ?_, ?_, ?_, hbefore.lasting⟩
  · rw [Report.foldl_enter, openReport_eq, Verdict.items_map_error]
    rfl
  · rw [Report.foldl_enter, openReport_eq, Verdict.issues_map_error]
  · exact filter_not_isRepeat_report (forall₂_judges_refusal b document.origin _) rfl

/-- Refuses every block and counts them. -/
def refusingAll : Sink (StateM Nat) Unit := fun _ n => (.error (), n + 1)

/-- An annotation without destination, and two blocks that aim at one destination. -/
def contested : Document :=
  ⟨['p'], ("<!-- extract: -->A<!-- endextract --><!-- extract:a -->B<!-- endextract -->" ++
    "<!-- extract:a -->C<!-- endextract -->").toList⟩

/-- Fed again, the accepted block is a duplicate and the other one still a conflict, although the
sink would refuse both. Between the two calls another document has failed. -/
theorem addDocument_refed_contested :
    ∃ (b : Builder) (outcomes : List (Except Unit Report)) (n : Nat) (report again : Report),
      addDocuments (refusing 1) (ofProcessor Block.bare) [contested, twoBlocks] 0 =
        ((b, outcomes), n) ∧
      (contested, Except.ok report) ∈ [contested, twoBlocks].zip outcomes ∧
      b.addDocument refusingAll contested =
        pure ({ b with total := b.total + 2 }, .ok again) ∧
      report.added = 1 ∧ again.added = 0 ∧
      again.issues.map Issue.isDuplicate = [false, true, false] ∧
      again.issues.filter (!·.isRepeat) = [.missingDestination 1] ∧
      report.issues.filter (!·.isRepeat) = [.missingDestination 1] := by
  have hrun :
      (addDocuments (refusing 1) (ofProcessor Block.bare) [contested, twoBlocks] 0).1.2.map
        (fun outcome => outcome.toOption.map Report.added) = [some 1, none] ∧
      ((Scan.ofText .discard contested.text).spans.map
        ((addDocuments (refusing 1) (ofProcessor Block.bare) [contested, twoBlocks] 0).1.1.refusal
          contested.origin)).map Issue.isDuplicate = [false, true, false] := by
    decide +kernel
  have hdocument :
      (validOf Block.bare contested).length = 2 ∧
      notice? .discard (Scan.ofText .discard contested.text) = none ∧
      lastingIssues Block.bare contested = [.missingDestination 1] := by
    decide +kernel
  obtain ⟨hvalid, hnotice, hlasting⟩ := hdocument
  obtain ⟨⟨⟨b, outcomes⟩, n⟩, hreached⟩ : ∃ run,
      addDocuments (refusing 1) (ofProcessor Block.bare) [contested, twoBlocks] 0 = run := ⟨_, rfl⟩
  rw [hreached] at hrun
  obtain ⟨houtcomes, hduplicates⟩ := hrun
  have hprocessor : b.processor = Block.bare :=
    (hasFed_of_addDocuments hreached).1.processor_eq
  obtain ⟨first, rest, rfl, hadded, -⟩ := List.map_eq_cons_iff.mp houtcomes
  cases first with
  | error e => cases hadded
  | ok report =>
      have hfed : (contested, Except.ok report) ∈
          [contested, twoBlocks].zip (Except.ok report :: rest) := List.mem_cons_self
      obtain ⟨again, hagain, hnone, hall, hlastingAgain, hlastingReport⟩ :=
        addDocument_refed hreached hfed refusingAll
      rw [hprocessor, hlasting] at hlastingAgain hlastingReport
      rw [hprocessor, hvalid, ← hprocessor] at hagain
      rw [hprocessor] at hall
      refine ⟨b, _, n, report, again, hreached, hfed, hagain, Option.some.inj hadded, hnone, ?_,
        hlastingAgain, hlastingReport⟩
      rw [hall]
      simp only [Block.bare, hnotice]
      exact hduplicates

end Builder

end Partials
