import Mathlib.Data.List.Forall2
import Partials.Proofs.Inventory.Runs

/-!
# The books of a document

Each span of a document that succeeds ends as an item or as one issue, so the counts of its report
balance: `addDocument_accounts`. The only issue that stands for no span is the notice about an
opening marker that is never closed. Where the end of the document closes its block, the block is
fed like any other and the notice keeps nothing out.
-/

namespace Partials

/-- The issue kept an annotation out of the inventory. -/
def Issue.keepsOut : Issue → Bool
  | .unterminated _ discarded => discarded
  | _ => true

/-- What becomes of a span: an item, or the issue that keeps it out. -/
abbrev Verdict := Except Issue Block

namespace Verdict

def items (verdicts : List Verdict) : List Block := verdicts.filterMap Except.toOption

def issues (verdicts : List Verdict) : List Issue :=
  verdicts.filterMap fun verdict =>
    match verdict with
    | .ok _ => none
    | .error issue => some issue

section

variable (block : Block) (issue : Issue) (verdicts : List Verdict)

@[simp]
theorem items_ok : items (.ok block :: verdicts) = block :: items verdicts := rfl

@[simp]
theorem items_error : items (.error issue :: verdicts) = items verdicts := rfl

@[simp]
theorem issues_ok : issues (.ok block :: verdicts) = issues verdicts := rfl

@[simp]
theorem issues_error : issues (.error issue :: verdicts) = issue :: issues verdicts := rfl

theorem length_eq_add : verdicts.length = (items verdicts).length + (issues verdicts).length := by
  induction verdicts with
  | nil => rfl
  | cons verdict verdicts ih =>
      cases verdict with
      | ok block =>
          rw [items_ok, issues_ok, List.length_cons, List.length_cons]
          omega
      | error issue =>
          rw [items_error, issues_error, List.length_cons, List.length_cons]
          omega

end

/-- The verdict is one that the span can have: its block is accepted, it has no block, or its block
repeats one that was accepted before. -/
inductive Judges (p : Processor) (origin : Text) : Span → Verdict → Prop
  | accepted {span block} (h : Block.ofSpan p span origin = .ok block) :
      Judges p origin span (.ok block)
  | invalid {span issue} (h : Block.ofSpan p span origin = .error issue) :
      Judges p origin span (.error issue)
  | duplicate {span block} (h : Block.ofSpan p span origin = .ok block) :
      Judges p origin span (.error (.duplicate span.startLine block.destination block.id))
  | conflict {span block} (h : Block.ofSpan p span origin = .ok block) :
      Judges p origin span (.error (.conflict span.startLine block.destination))

theorem judges_of_objection? {b : Builder} {span : Span} {origin : Text} {block : Block}
    {issue : Issue} (hspan : Block.ofSpan b.processor span origin = .ok block)
    (hobjection : b.objection? span.startLine block = some issue) :
    Judges b.processor origin span (.error issue) := by
  unfold Builder.objection? at hobjection
  split at hobjection
  · obtain rfl := Option.some.inj hobjection
    exact .duplicate hspan
  · split at hobjection
    · obtain rfl := Option.some.inj hobjection
      exact .conflict hspan
    · cases hobjection

theorem Judges.keepsOut {p : Processor} {origin : Text} {span : Span} {issue : Issue}
    (h : Judges p origin span (.error issue)) : issue.keepsOut = true := by
  cases h with
  | invalid h =>
      rcases Block.ofSpan_error_cases h with rfl | ⟨destination, rfl⟩ | ⟨cause, rfl⟩
      · rfl
      · rfl
      · rfl
  | duplicate h => rfl
  | conflict h => rfl

theorem keepsOut_of_mem_issues {p : Processor} {origin : Text} {spans : List Span}
    {verdicts : List Verdict} (h : List.Forall₂ (Judges p origin) spans verdicts) :
    ∀ issue ∈ issues verdicts, issue.keepsOut = true := by
  induction h with
  | nil =>
      intro issue hissue
      cases hissue
  | @cons span verdict spans verdicts hverdict hrest ih =>
      cases verdict with
      | ok block => exact ih
      | error first =>
          intro issue hissue
          rcases List.mem_cons.mp hissue with rfl | hissue
          · exact hverdict.keepsOut
          · exact ih issue hissue

end Verdict

namespace Report

/-- The report after one more span. -/
def enter (r : Report) : Verdict → Report
  | .ok _ => r.countAdded
  | .error issue => r.note issue

/-- A report counts the items and lists the issues, duplicates among them. -/
theorem foldl_enter (r : Report) (verdicts : List Verdict) :
    verdicts.foldl enter r =
      { r with
        added := r.added + (Verdict.items verdicts).length
        duplicates := r.duplicates + (Verdict.issues verdicts).countP Issue.isDuplicate
        issues := r.issues ++ Verdict.issues verdicts } := by
  induction verdicts generalizing r with
  | nil => simp [Verdict.items, Verdict.issues]
  | cons verdict verdicts ih =>
      rw [List.foldl_cons, ih]
      cases verdict with
      | ok block => simp [enter, countAdded, Nat.add_assoc, Nat.add_comm 1]
      | error issue =>
          simp only [enter, note, Verdict.items_error, Verdict.issues_error, List.countP_cons,
            List.append_assoc, List.singleton_append]
          split
          · simp [Nat.add_assoc, Nat.add_comm 1]
          · simp

end Report

namespace Builder

variable {σ ε : Type}

/-- Where no write fails, each span has one verdict, and the items and the report are made of
these. -/
theorem addSpans_verdicts {sink : Sink (StateM σ) ε} {origin : Text} {b b' : Builder}
    {r r' : Report} {spans : List Span} {s s' : σ}
    (h : addSpans sink origin b r spans s = ((b', .ok r'), s')) :
    ∃ verdicts, List.Forall₂ (Verdict.Judges b.processor origin) spans verdicts ∧
      b'.items = b.items ++ Verdict.items verdicts ∧ r' = verdicts.foldl Report.enter r := by
  induction spans generalizing b r s with
  | nil =>
      obtain ⟨houtcome, -⟩ := Prod.mk.inj h
      obtain ⟨rfl, hreport⟩ := Prod.mk.inj houtcome
      exact ⟨[], .nil, (List.append_nil _).symm, (Except.ok.inj hreport).symm⟩
  | cons span spans ih =>
      cases hspan : Block.ofSpan b.processor span origin with
      | error issue =>
          rw [addSpans_of_error hspan] at h
          obtain ⟨verdicts, hjudged, hitems, hreport⟩ := ih h
          exact ⟨.error issue :: verdicts, .cons (.invalid hspan) hjudged, hitems, hreport⟩
      | ok block =>
          cases hobjection : b.objection? span.startLine block with
          | some issue =>
              rw [addSpans_of_objection hspan hobjection] at h
              obtain ⟨verdicts, hjudged, hitems, hreport⟩ := ih h
              exact ⟨.error issue :: verdicts,
                .cons (Verdict.judges_of_objection? hspan hobjection) hjudged, hitems, hreport⟩
          | none =>
              rw [addSpans_of_write hspan hobjection, bind_apply] at h
              cases hwrite : sink block s with
              | mk answer mid =>
                  rw [hwrite] at h
                  cases answer with
                  | error e => cases (Prod.mk.inj (Prod.mk.inj h).1).2
                  | ok _ =>
                      obtain ⟨verdicts, hjudged, hitems, hreport⟩ := ih h
                      refine ⟨.ok block :: verdicts, .cons (.accepted hspan) hjudged, ?_, hreport⟩
                      rw [hitems]
                      exact List.append_assoc b.items [block] _

/-- The notice about an opening marker that is never closed. -/
def notice? (policy : Policy) (scan : Scan) : Option Issue :=
  scan.unterminated.map fun line => .unterminated line (policy == .discard)

theorem openReport_eq (policy : Policy) (document : Document) (scan : Scan) :
    openReport policy document scan =
      { origin := document.origin
        annotations := scan.spans.length + (notice? policy scan).toList.countP Issue.keepsOut
        issues := (notice? policy scan).toList } := by
  unfold openReport notice?
  cases scan.unterminated with
  | none => rfl
  | some line => cases policy <;> rfl

theorem not_isDuplicate_of_mem_notice? {policy : Policy} {scan : Scan} :
    ∀ issue ∈ (notice? policy scan).toList, issue.isDuplicate = false := by
  intro issue hissue
  rw [Option.mem_toList, notice?, Option.map_eq_some_iff] at hissue
  obtain ⟨line, -, rfl⟩ := hissue
  rfl

/-- An issue that keeps nothing out is there once if the end of the document closed a block, and
otherwise not. -/
theorem countP_not_keepsOut_notice? (policy : Policy) (scan : Scan) :
    (notice? policy scan).toList.countP (!·.keepsOut) =
      if policy = .closeAtEnd ∧ scan.unterminated.isSome then 1 else 0 := by
  unfold notice?
  cases scan.unterminated with
  | none => simp
  | some line => cases policy <;> simp [Issue.keepsOut]

/-- The books of a document that succeeds balance. Each of its spans is an item or has an issue of
its own, and the notice about a marker that is never closed comes before these. So each annotation
is either added or has one issue that keeps it out; the only other issue is the notice about a block
that the document's end closed. The duplicates are those among the issues, so the number of other
issues is no truncated difference, and without that notice the printed counts add up to the
annotations. -/
theorem addDocument_accounts {sink : Sink (StateM σ) ε} {b b' : Builder} {document : Document}
    {r : Report} {s s' : σ} (h : b.addDocument sink document s = ((b', .ok r), s')) :
    ∃ verdicts : List Verdict,
      let policy := b.processor.options.unterminated
      let scan := Scan.ofText policy document.text
      List.Forall₂ (Verdict.Judges b.processor document.origin) scan.spans verdicts ∧
      b'.items = b.items ++ Verdict.items verdicts ∧
      r.added = (Verdict.items verdicts).length ∧
      r.issues = (notice? policy scan).toList ++ Verdict.issues verdicts ∧
      r.annotations = r.added + r.issues.countP Issue.keepsOut ∧
      r.issues.countP (!·.keepsOut) =
        (if policy = .closeAtEnd ∧ scan.unterminated.isSome then 1 else 0) ∧
      r.duplicates = r.issues.countP Issue.isDuplicate ∧
      r.duplicates ≤ r.issues.length ∧
      (r.issues.all Issue.keepsOut = true →
        r.annotations = r.added + r.issues.length ∧
        r.added + r.duplicates + r.skipped = r.annotations) := by
  obtain ⟨verdicts, hjudged, hitems, hreport⟩ := addSpans_verdicts h
  rw [Report.foldl_enter, openReport_eq] at hreport
  set policy := b.processor.options.unterminated
  set scan := Scan.ofText policy document.text
  have hkept : ∀ issue ∈ Verdict.issues verdicts, issue.keepsOut = true :=
    Verdict.keepsOut_of_mem_issues hjudged
  have hadded : r.added = (Verdict.items verdicts).length := by
    rw [hreport]
    exact Nat.zero_add _
  have hissues : r.issues = (notice? policy scan).toList ++ Verdict.issues verdicts := by
    rw [hreport]
  have hannotations : r.annotations = r.added + r.issues.countP Issue.keepsOut := by
    have hlength := hjudged.length_eq
    rw [Verdict.length_eq_add] at hlength
    rw [hadded, hissues, List.countP_append, List.countP_eq_length.mpr hkept, hreport]
    dsimp only
    omega
  have hnotices : r.issues.countP (!·.keepsOut) =
      if policy = .closeAtEnd ∧ scan.unterminated.isSome then 1 else 0 := by
    rw [hissues, List.countP_append, countP_not_keepsOut_notice?, Nat.add_eq_left,
      List.countP_eq_zero]
    intro issue hissue
    simp [hkept issue hissue]
  have hduplicates : r.duplicates = r.issues.countP Issue.isDuplicate := by
    have hnone : (notice? policy scan).toList.countP Issue.isDuplicate = 0 := by
      rw [List.countP_eq_zero]
      intro issue hissue
      simp [not_isDuplicate_of_mem_notice? issue hissue]
    rw [hissues, List.countP_append, hnone, hreport]
  have hle : r.duplicates ≤ r.issues.length := hduplicates ▸ List.countP_le_length
  refine ⟨verdicts, hjudged, hitems, hadded, hissues, hannotations, hnotices, hduplicates, hle, ?_⟩
  intro hall
  have hlength : r.issues.countP Issue.keepsOut = r.issues.length :=
    List.countP_eq_length.mpr (List.all_eq_true.mp hall)
  rw [hlength] at hannotations
  refine ⟨hannotations, ?_⟩
  unfold Report.skipped
  omega

/-- An annotation without destination, a block and its repetition, and a marker without a close. -/
def mixed : Document :=
  ⟨[], ("<!-- extract: -->A<!-- endextract --><!-- extract:a -->B<!-- endextract -->" ++
    "<!-- extract:a -->B<!-- endextract --><!-- extract:c -->C").toList⟩

theorem addDocument_accounts_mixed :
    ∃ (b : Builder) (r : Report),
      (ofProcessor Block.bare).addDocument (Sink.none : Sink (StateM Unit) Unit) mixed () =
        ((b, .ok r), ()) ∧
      r.issues.all Issue.keepsOut = true ∧
      r.added = 1 ∧ r.duplicates = 1 ∧ r.skipped = 2 ∧
      r.added + r.duplicates + r.skipped = r.annotations := by
  have hfacts :
      ((ofProcessor Block.bare).addDocument (Sink.none : Sink (StateM Unit) Unit) mixed
        ()).1.2.toOption.any (fun r => r.issues.all Issue.keepsOut && r.added == 1 &&
          r.duplicates == 1 && r.skipped == 2) = true := by
    decide +kernel
  cases hrun : (ofProcessor Block.bare).addDocument
      (Sink.none : Sink (StateM Unit) Unit) mixed () with
  | mk fed s =>
      obtain ⟨b, outcome⟩ := fed
      rw [hrun] at hfacts
      cases outcome with
      | error e => cases hfacts
      | ok r =>
          have hcounts : ((r.issues.all Issue.keepsOut = true ∧ r.added = 1) ∧
              r.duplicates = 1) ∧ r.skipped = 2 := by
            simpa [Except.toOption] using hfacts
          obtain ⟨⟨⟨hall, hadded⟩, hduplicates⟩, hskipped⟩ := hcounts
          obtain ⟨-, -, -, -, -, -, -, -, -, hbalance⟩ := addDocument_accounts hrun
          exact ⟨b, r, rfl, hall, hadded, hduplicates, hskipped, (hbalance hall).2⟩

/-- Default options, except that the end of a document closes its last block. -/
def closing : Processor := ⟨{ unterminated := .closeAtEnd }, Wrap.Pair.empty⟩

/-- A document whose only marker is never closed. -/
def unclosed : Document := ⟨[], "<!-- extract:a.html -->A".toList⟩

/-- A block that the end of the document closes is added and has a notice besides, so its annotation
stands twice in the books. -/
theorem addDocument_notes_added_block :
    ∃ (b : Builder) (r : Report),
      (ofProcessor closing).addDocument (Sink.none : Sink (StateM Unit) Unit) unclosed () =
        ((b, .ok r), ()) ∧
      r.annotations = 1 ∧ r.added = 1 ∧ r.issues = [.unterminated 1 false] ∧
      r.annotations ≠ r.added + r.issues.length := by
  have hreport :
      ((ofProcessor closing).addDocument (Sink.none : Sink (StateM Unit) Unit) unclosed
        ()).1.2.toOption = some ⟨[], 1, 1, 0, [.unterminated 1 false]⟩ := by
    decide +kernel
  cases hrun : (ofProcessor closing).addDocument (Sink.none : Sink (StateM Unit) Unit) unclosed
      () with
  | mk fed s =>
      obtain ⟨b, outcome⟩ := fed
      rw [hrun] at hreport
      cases outcome with
      | error e => cases hreport
      | ok r =>
          obtain rfl := Option.some.inj hreport
          exact ⟨b, _, rfl, rfl, rfl, rfl, by decide⟩

end Builder

end Partials
