import Partials.Proofs.Block.Acceptance
import Partials.Proofs.Inventory.FirstWins

/-!
# Feeding documents

A run feeds its documents one after the other, whatever becomes of each. Where no write fails, the
builder holds the first-wins image of the valid blocks met so far, and every other valid block is
reported.
-/

namespace Partials

variable {m : Type → Type} [Monad m] {ε : Type}

namespace Sink

/-- The sink accepts every block, whatever it does with it. -/
def NeverFails (sink : Sink m ε) : Prop :=
  ∀ block, sink block = (fun _ => .ok ()) <$> sink block

/-- Gives the blocks to the sink, one after the other. -/
def writeAll (sink : Sink m ε) : List Block → m Unit
  | [] => pure ()
  | block :: blocks => do
    let _ ← sink block
    writeAll sink blocks

theorem writeAll_append [LawfulMonad m] (sink : Sink m ε) (first rest : List Block) :
    sink.writeAll (first ++ rest) = (do sink.writeAll first; sink.writeAll rest) := by
  induction first with
  | nil => simp [writeAll]
  | cons block first ih => simp [writeAll, ih]

theorem neverFails_none [LawfulMonad m] : (Sink.none : Sink m ε).NeverFails := by
  intro block
  simp [Sink.none]

theorem writeAll_none [LawfulMonad m] (blocks : List Block) :
    (Sink.none : Sink m ε).writeAll blocks = pure () := by
  induction blocks with
  | nil => rfl
  | cons block blocks ih => rw [writeAll, ih, none, pure_bind]

end Sink

def Issue.isRepeat : Issue → Bool
  | .duplicate .. => true
  | .conflict .. => true
  | _ => false

namespace Block

/-- The valid blocks of the spans, each with its line. -/
def offers (p : Processor) (origin : Text) (spans : List Span) : List (Nat × Block) :=
  spans.filterMap fun span =>
    match ofSpan p span origin with
    | .ok block => some (span.startLine, block)
    | .error _ => none

/-- The reports of the offers whose destination is taken, by an offer or by a block before. -/
def repeatIssues (before : List Block) : List (Nat × Block) → List Issue
  | [] => []
  | (line, block) :: offers =>
    (repeatIssue? before line block).toList ++ repeatIssues (before ++ [block]) offers

theorem offers_cons_of_error {p : Processor} {span : Span} {origin : Text} {issue : Issue}
    (hspan : ofSpan p span origin = .error issue) (spans : List Span) :
    offers p origin (span :: spans) = offers p origin spans := by
  simp only [offers, List.filterMap_cons, hspan]

theorem offers_cons_of_ok {p : Processor} {span : Span} {origin : Text} {block : Block}
    (hspan : ofSpan p span origin = .ok block) (spans : List Span) :
    offers p origin (span :: spans) = (span.startLine, block) :: offers p origin spans := by
  simp only [offers, List.filterMap_cons, hspan]

theorem not_isRepeat_of_ofSpan_eq_error {p : Processor} {span : Span} {origin : Text}
    {issue : Issue} (herror : ofSpan p span origin = .error issue) : issue.isRepeat = false := by
  rcases ofSpan_error_cases herror with rfl | ⟨destination, rfl⟩ | ⟨cause, rfl⟩
  · rfl
  · rfl
  · rfl

theorem isRepeat_of_repeatIssue? {before : List Block} {line : Nat} {block : Block}
    {issue : Issue} (hissue : repeatIssue? before line block = some issue) :
    issue.isRepeat = true := by
  obtain ⟨owner, -, rfl⟩ := Option.map_eq_some_iff.1 hissue
  by_cases hid : block.id = owner.id
  · simp [hid, Issue.isRepeat]
  · simp [hid, Issue.isRepeat]

/-- Equal identities are identities of one destination. -/
def IdsDecideDestinations (blocks : List Block) : Prop :=
  ∀ x ∈ blocks, ∀ y ∈ blocks, x.id = y.id → x.destination = y.destination

theorem IdsDecideDestinations.mono {some all : List Block} (hids : IdsDecideDestinations all)
    (hsub : some ⊆ all) : IdsDecideDestinations some :=
  fun x hx y hy hid => hids x (hsub hx) y (hsub hy) hid

end Block

namespace Builder

section Spans

variable {sink : Sink m ε} {origin : Text} {b : Builder} {r : Report} {span : Span}
  {spans : List Span}

theorem addSpans_of_error {issue : Issue}
    (hspan : Block.ofSpan b.processor span origin = .error issue) :
    addSpans sink origin b r (span :: spans) = addSpans sink origin b (r.note issue) spans := by
  rw [addSpans, hspan]

theorem addSpans_of_objection {block : Block} {issue : Issue}
    (hspan : Block.ofSpan b.processor span origin = .ok block)
    (hobjection : b.objection? span.startLine block = some issue) :
    addSpans sink origin b r (span :: spans) =
      addSpans sink origin b.countValid (r.note issue) spans := by
  rw [addSpans, hspan]
  simp only [hobjection]

/-- How the document goes on once the sink has had the block. -/
def afterWrite (sink : Sink m ε) (origin : Text) (b : Builder) (r : Report) (spans : List Span)
    (block : Block) : Except ε Unit → m (Builder × Except ε Report)
  | .ok () => addSpans sink origin (b.countValid.accept block) r.countAdded spans
  | .error e => pure (b.countValid, .error e)

theorem addSpans_of_write {block : Block}
    (hspan : Block.ofSpan b.processor span origin = .ok block)
    (hobjection : b.objection? span.startLine block = none) :
    addSpans sink origin b r (span :: spans) =
      sink block >>= afterWrite sink origin b r spans block := by
  rw [addSpans, hspan]
  simp only [hobjection]
  apply bind_congr
  intro outcome
  cases outcome with
  | ok _ => rfl
  | error e => rfl

end Spans

theorem eq_ofProcessor_of_ofOptions {o : Options} {b : Builder} (hb : ofOptions o = .ok b) :
    b = ofProcessor b.processor := by
  unfold ofOptions at hb
  cases hp : Processor.ofOptions o with
  | error cause =>
      rw [hp] at hb
      cases hb
  | ok p =>
      rw [hp] at hb
      obtain rfl := Except.ok.inj hb
      rfl

/-- The blocks of a document that may enter the inventory, each with its line. -/
def offers (p : Processor) (document : Document) : List (Nat × Block) :=
  Block.offers p document.origin (Scan.ofText p.options.unterminated document.text).spans

/-- The valid blocks of the documents, in their order. -/
def validBlocks (p : Processor) (documents : List Document) : List Block :=
  documents.flatMap fun document => (offers p document).map Prod.snd

/-- Feeds the documents, one after the other; a document that fails ends no run. -/
def addDocuments (sink : Sink m ε) :
    Builder → List Document → m (Builder × List (Except ε Report))
  | b, [] => pure (b, [])
  | b, document :: documents => do
    let (b, outcome) ← b.addDocument sink document
    let (b, outcomes) ← addDocuments sink b documents
    pure (b, outcome :: outcomes)

/-- The builder after a stream of valid blocks of which no write failed. -/
def ofStream (p : Processor) (blocks : List Block) : Builder where
  processor := p
  seen := (Block.firstWins blocks).map Block.id
  owners := (Block.firstWins blocks).map fun b => (b.destination, b.id)
  items := Block.firstWins blocks
  total := blocks.length

theorem objection?_ofStream (p : Processor) {before : List Block} (line : Nat) {block : Block}
    (hids : Block.IdsDecideDestinations (before ++ [block])) :
    (ofStream p before).objection? line block = Block.repeatIssue? before line block := by
  have howners : (ofStream p before).owners.map Prod.fst =
      (before.map Block.destination).eraseDups := by
    rw [← Block.map_destination_firstWins]
    simp [ofStream]
  -- An accepted block with the identity of `block` is the owner of its destination.
  have hseen : block.id ∈ (ofStream p before).seen ↔
      ∃ owner, Block.owner? before block = some owner ∧ block.id = owner.id := by
    constructor
    · intro hmem
      obtain ⟨owner, howner, hid⟩ := List.mem_map.1 hmem
      have hbefore := Block.mem_of_mem_firstWins howner
      have hdestination := hids owner (by simp [hbefore]) block (by simp) hid
      exact ⟨owner, Block.owner?_eq_some_of_mem_firstWins howner hdestination, hid.symm⟩
    · rintro ⟨owner, howner, hid⟩
      exact List.mem_map.2 ⟨owner, Block.mem_firstWins_of_owner? howner, hid.symm⟩
  unfold objection? Block.repeatIssue?
  rw [howners]
  cases howner : Block.owner? before block with
  | none =>
    have hfree := Block.owner?_eq_none_iff.1 howner
    simp [hseen, howner, List.mem_eraseDups, hfree]
  | some owner =>
    obtain ⟨hbefore, hdestination⟩ := Block.mem_of_owner? howner
    have htaken : block.destination ∈ before.map Block.destination :=
      List.mem_map.2 ⟨owner, hbefore, hdestination⟩
    by_cases hid : block.id = owner.id
    · rw [if_pos (hseen.2 ⟨owner, howner, hid⟩), Option.map_some, if_pos hid]
    · have hunseen : block.id ∉ (ofStream p before).seen := by
        simpa [hseen, howner] using hid
      rw [if_neg hunseen, if_pos (List.mem_eraseDups.2 htaken), Option.map_some, if_neg hid]

theorem countValid_ofStream {p : Processor} {before : List Block} {block : Block}
    (hmem : block.destination ∈ before.map Block.destination) :
    (ofStream p before).countValid = ofStream p (before ++ [block]) := by
  simp [ofStream, countValid, Block.firstWins_append_of_mem hmem]

theorem accept_ofStream {p : Processor} {before : List Block} {block : Block}
    (hmem : block.destination ∉ before.map Block.destination) :
    (ofStream p before).countValid.accept block = ofStream p (before ++ [block]) := by
  simp [ofStream, countValid, accept, Block.firstWins_append_of_not_mem hmem]

variable {sink : Sink m ε}

theorem bind_writeAll_of_neverFails [LawfulMonad m] {α : Type} (hsink : sink.NeverFails)
    (block : Block) (blocks : List Block) (value : α) {next : Except ε Unit → m α}
    (hnext : next (.ok ()) = (fun _ => value) <$> sink.writeAll blocks) :
    sink block >>= next = (fun _ => value) <$> sink.writeAll (block :: blocks) := by
  rw [hsink block, Sink.writeAll, map_bind, bind_map_left, hnext]

/-- Feeding the spans of a document keeps the builder the image of its stream. -/
theorem addSpans_ofStream [LawfulMonad m] (hsink : sink.NeverFails) (p : Processor)
    (origin : Text) (spans : List Span) :
    ∀ (before : List Block) (r : Report),
      Block.IdsDecideDestinations (before ++ (Block.offers p origin spans).map Prod.snd) →
      ∃ (written : List Block) (r' : Report),
        Block.firstWins (before ++ (Block.offers p origin spans).map Prod.snd) =
          Block.firstWins before ++ written ∧
        addSpans sink origin (ofStream p before) r spans =
          (fun _ => (ofStream p (before ++ (Block.offers p origin spans).map Prod.snd), .ok r')) <$>
            sink.writeAll written ∧
        r'.issues.filter Issue.isRepeat =
          r.issues.filter Issue.isRepeat ++
            Block.repeatIssues before (Block.offers p origin spans) := by
  induction spans with
  | nil =>
      intro before r _
      refine ⟨[], r, by simp [Block.offers], ?_, by simp [Block.offers, Block.repeatIssues]⟩
      simp [addSpans, Block.offers, Sink.writeAll]
  | cons span spans ih =>
      intro before r hids
      cases hspan : Block.ofSpan p span origin with
      | error issue =>
          rw [Block.offers_cons_of_error hspan] at hids ⊢
          obtain ⟨written, r', hitems, hrun, hissues⟩ := ih before (r.note issue) hids
          refine ⟨written, r', hitems, ?_, ?_⟩
          · rw [addSpans_of_error (b := ofStream p before) hspan]
            exact hrun
          · rw [hissues]
            simp [Report.note, Block.not_isRepeat_of_ofSpan_eq_error hspan]
      | ok block =>
          rw [Block.offers_cons_of_ok hspan, List.map_cons, List.append_cons] at hids ⊢
          have hobjection := objection?_ofStream p span.startLine
            (hids.mono (List.subset_append_left _ _))
          cases hissue : Block.repeatIssue? before span.startLine block with
          | some issue =>
              rw [hissue] at hobjection
              have hmem : block.destination ∈ before.map Block.destination := by
                by_cases hmem : block.destination ∈ before.map Block.destination
                · exact hmem
                · rw [Block.repeatIssue?_eq_none_iff.2 hmem] at hissue
                  cases hissue
              obtain ⟨written, r', hitems, hrun, hissues⟩ :=
                ih (before ++ [block]) (r.note issue) hids
              rw [← countValid_ofStream hmem] at hrun
              refine ⟨written, r', ?_, ?_, ?_⟩
              · rw [hitems, Block.firstWins_append_of_mem hmem]
              · rw [addSpans_of_objection (b := ofStream p before) hspan hobjection]
                exact hrun
              · rw [hissues, Block.repeatIssues, hissue]
                simp [Report.note, Block.isRepeat_of_repeatIssue? hissue]
          | none =>
              rw [hissue] at hobjection
              have hmem := Block.repeatIssue?_eq_none_iff.1 hissue
              obtain ⟨written, r', hitems, hrun, hissues⟩ :=
                ih (before ++ [block]) r.countAdded hids
              rw [← accept_ofStream hmem] at hrun
              refine ⟨block :: written, r', ?_, ?_, ?_⟩
              · rw [hitems, Block.firstWins_append_of_not_mem hmem, List.append_assoc]
                rfl
              · rw [addSpans_of_write (b := ofStream p before) hspan hobjection]
                exact bind_writeAll_of_neverFails hsink block written _ hrun
              · rw [hissues, Block.repeatIssues, hissue]
                simp [Report.countAdded]

theorem filter_isRepeat_openReport (policy : Policy) (document : Document) (scan : Scan) :
    (openReport policy document scan).issues.filter Issue.isRepeat = [] := by
  unfold openReport
  cases scan.unterminated with
  | none => rfl
  | some line => rfl

theorem addDocument_ofStream [LawfulMonad m] (hsink : sink.NeverFails) {p : Processor}
    {before : List Block} {document : Document}
    (hids : Block.IdsDecideDestinations (before ++ (offers p document).map Prod.snd)) :
    ∃ (written : List Block) (report : Report),
      Block.firstWins (before ++ (offers p document).map Prod.snd) =
        Block.firstWins before ++ written ∧
      (ofStream p before).addDocument sink document =
        (fun _ => (ofStream p (before ++ (offers p document).map Prod.snd), .ok report)) <$>
          sink.writeAll written ∧
      report.issues.filter Issue.isRepeat = Block.repeatIssues before (offers p document) := by
  obtain ⟨written, report, hitems, hrun, hissues⟩ :=
    addSpans_ofStream hsink p document.origin _ before
      (openReport p.options.unterminated document
        (Scan.ofText p.options.unterminated document.text)) hids
  refine ⟨written, report, hitems, hrun, ?_⟩
  rw [hissues, filter_isRepeat_openReport, List.nil_append]
  rfl

/-- Each report names the repeats among the valid blocks of its document, once each. -/
def ReportsRepeats (p : Processor) (before : List Block) (documents : List Document)
    (reports : List Report) : Prop :=
  reports.length = documents.length ∧
  ∀ (earlier : List Document) (document : Document) (later : List Document),
    documents = earlier ++ document :: later →
      ∃ report, reports[earlier.length]? = some report ∧
        report.issues.filter Issue.isRepeat =
          Block.repeatIssues (before ++ validBlocks p earlier) (offers p document)

theorem reportsRepeats_nil (p : Processor) (before : List Block) :
    ReportsRepeats p before [] [] := by
  refine ⟨rfl, ?_⟩
  intro earlier document later hdocuments
  simp at hdocuments

theorem ReportsRepeats.cons {p : Processor} {before : List Block} {document : Document}
    {documents : List Document} {report : Report} {reports : List Report}
    (hreport : report.issues.filter Issue.isRepeat =
      Block.repeatIssues before (offers p document))
    (hreports : ReportsRepeats p (before ++ (offers p document).map Prod.snd) documents reports) :
    ReportsRepeats p before (document :: documents) (report :: reports) := by
  refine ⟨by simp [hreports.1], ?_⟩
  intro earlier other later hdocuments
  cases earlier with
  | nil =>
      obtain ⟨rfl, rfl⟩ := List.cons.inj hdocuments
      exact ⟨report, rfl, by simpa [validBlocks] using hreport⟩
  | cons first earlier =>
      obtain ⟨rfl, htail⟩ := List.cons.inj hdocuments
      obtain ⟨found, hfound, hissues⟩ := hreports.2 earlier other later htail
      refine ⟨found, by simpa using hfound, ?_⟩
      rw [hissues]
      simp [validBlocks]

theorem addDocuments_ofStream [LawfulMonad m] (hsink : sink.NeverFails) (p : Processor)
    (documents : List Document) :
    ∀ before : List Block,
      Block.IdsDecideDestinations (before ++ validBlocks p documents) →
      ∃ (written : List Block) (reports : List Report),
        Block.firstWins (before ++ validBlocks p documents) = Block.firstWins before ++ written ∧
        addDocuments sink (ofStream p before) documents =
          (fun _ => (ofStream p (before ++ validBlocks p documents), reports.map Except.ok)) <$>
            sink.writeAll written ∧
        ReportsRepeats p before documents reports := by
  induction documents with
  | nil =>
      intro before _
      refine ⟨[], [], by simp [validBlocks], ?_, reportsRepeats_nil p before⟩
      simp [addDocuments, validBlocks, Sink.writeAll]
  | cons document documents ih =>
      intro before hids
      have hvalid : before ++ validBlocks p (document :: documents) =
          (before ++ (offers p document).map Prod.snd) ++ validBlocks p documents := by
        simp [validBlocks]
      rw [hvalid] at hids ⊢
      obtain ⟨first, report, hfirst, hdocument, hreport⟩ :=
        addDocument_ofStream hsink (hids.mono (List.subset_append_left _ _))
      obtain ⟨rest, reports, hrest, hdocuments, hreports⟩ := ih _ hids
      refine ⟨first ++ rest, report :: reports, ?_, ?_, hreports.cons hreport⟩
      · rw [hrest, hfirst, List.append_assoc]
      · rw [addDocuments, hdocument, Sink.writeAll_append]
        simp [hdocuments]

/-- Where no write fails, the inventory is the first-wins image of the valid blocks: for each
destination the first block with it, in the order of first appearance. These are the blocks given to
the sink, and every other valid block is reported once, in the report of its document. -/
theorem addDocuments_firstWins [LawfulMonad m] {sink : Sink m ε} (hsink : sink.NeverFails)
    {o : Options} {b : Builder} (hb : ofOptions o = .ok b) (documents : List Document)
    (hids : Block.IdsDecideDestinations (validBlocks b.processor documents)) :
    ∃ (final : Builder) (reports : List Report),
      addDocuments sink b documents =
        (fun _ => (final, reports.map Except.ok)) <$> sink.writeAll final.items ∧
      final.finish.items = Block.firstWins (validBlocks b.processor documents) ∧
      final.finish.totalCount = (validBlocks b.processor documents).length ∧
      final.finish.uniqueCount =
        ((validBlocks b.processor documents).map Block.destination).eraseDups.length ∧
      ReportsRepeats b.processor [] documents reports := by
  have hstart : b = ofStream b.processor [] := eq_ofProcessor_of_ofOptions hb
  obtain ⟨written, reports, hitems, hrun, hreports⟩ :=
    addDocuments_ofStream hsink b.processor documents [] hids
  rw [← hstart] at hrun
  refine ⟨ofStream b.processor (validBlocks b.processor documents), reports, ?_, rfl, rfl, ?_,
    hreports⟩
  · rw [hrun, show (ofStream b.processor (validBlocks b.processor documents)).items = written from
      hitems]
    rfl
  · rw [← Block.map_destination_firstWins, List.length_map]
    rfl

/-- Two documents that aim at one destination, the second with another text. -/
def sharedDestination : List Document :=
  [⟨['1'], ("<!-- extract:a.html -->A<!-- endextract -->" ++
      "<!-- extract:b.html -->B<!-- endextract -->").toList⟩,
    ⟨['2'], "<!-- extract:a.html -->C<!-- endextract -->".toList⟩]

instance (blocks : List Block) : Decidable (Block.IdsDecideDestinations blocks) :=
  inferInstanceAs (Decidable (∀ x ∈ blocks, ∀ y ∈ blocks, x.id = y.id →
    x.destination = y.destination))

theorem addDocuments_firstWins_sharedDestination :
    ∃ (p : Processor) (final : Builder) (reports : List (Except Unit Report)),
      ofOptions {} = .ok (ofProcessor p) ∧
      Block.IdsDecideDestinations (validBlocks p sharedDestination) ∧
      addDocuments (m := Id) Sink.none (ofProcessor p) sharedDestination = (final, reports) ∧
      final.finish.totalCount = 3 ∧ final.finish.uniqueCount = 2 := by
  have hb : ofOptions {} = .ok (ofProcessor ⟨{}, Wrap.Pair.empty⟩) := rfl
  have hblocks : Block.IdsDecideDestinations
        (validBlocks ⟨{}, Wrap.Pair.empty⟩ sharedDestination) ∧
      (validBlocks ⟨{}, Wrap.Pair.empty⟩ sharedDestination).length = 3 ∧
      ((validBlocks ⟨{}, Wrap.Pair.empty⟩ sharedDestination).map
        Block.destination).eraseDups.length = 2 := by
    decide +kernel
  have hsink : (Sink.none : Sink Id Unit).NeverFails := Sink.neverFails_none
  obtain ⟨final, reports, hrun, -, htotal, hunique, -⟩ :=
    addDocuments_firstWins hsink hb sharedDestination hblocks.1
  refine ⟨_, final, reports.map Except.ok, hb, hblocks.1, hrun, ?_, ?_⟩
  · rw [htotal]
    exact hblocks.2.1
  · rw [hunique]
    exact hblocks.2.2

end Builder

end Partials
