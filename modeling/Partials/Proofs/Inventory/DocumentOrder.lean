import Partials.Proofs.Inventory.Feeding

/-!
# The order of the documents

Which blocks are accepted depends on the order of the documents; how many there are, and at which
destinations, does not. A conflict is reported exactly when two blocks with one destination have
different identities, whichever comes first (`ReportsRepeats.noConflict_iff`), and if none is, the
identities do not depend on the order either (`addDocuments_perm`).
-/

namespace Partials

namespace Block

variable {blocks blocks' before : List Block}

/-- The destinations that are taken do not depend on the order of the stream. -/
theorem map_destination_firstWins_perm (h : blocks.Perm blocks') :
    ((firstWins blocks).map Block.destination).Perm
      ((firstWins blocks').map Block.destination) := by
  refine (List.perm_ext_iff_of_nodup (nodup_map_destination_firstWins blocks)
    (nodup_map_destination_firstWins blocks')).mpr fun destination => ?_
  rw [mem_map_destination_firstWins, mem_map_destination_firstWins]
  exact (h.map Block.destination).mem_iff

/-- Blocks with one destination are one block by their identities. -/
def DestinationsDecideIds (blocks : List Block) : Prop :=
  ∀ x ∈ blocks, ∀ y ∈ blocks, x.destination = y.destination → x.id = y.id

theorem DestinationsDecideIds.mono (h : DestinationsDecideIds blocks) (hsub : blocks' ⊆ blocks) :
    DestinationsDecideIds blocks' :=
  fun x hx y hy => h x (hsub hx) y (hsub hy)

/-- Then the accepted blocks have all of the identities. -/
theorem DestinationsDecideIds.mem_map_id_firstWins (h : DestinationsDecideIds blocks) {id : Text} :
    id ∈ (firstWins blocks).map Block.id ↔ id ∈ blocks.map Block.id := by
  constructor
  · intro hid
    obtain ⟨block, hblock, rfl⟩ := List.mem_map.mp hid
    exact List.mem_map_of_mem (mem_of_mem_firstWins hblock)
  · intro hid
    obtain ⟨block, hblock, rfl⟩ := List.mem_map.mp hid
    cases howner : owner? blocks block with
    | none => exact absurd (List.mem_map_of_mem hblock) (owner?_eq_none_iff.mp howner)
    | some owner =>
        obtain ⟨hmem, hdestination⟩ := mem_of_owner? howner
        rw [← h owner hmem block hblock hdestination]
        exact List.mem_map_of_mem (mem_firstWins_of_owner? howner)

/-- No issue is a conflict. -/
def NoConflict (issues : List Issue) : Prop :=
  ∀ line destination, Issue.conflict line destination ∉ issues

theorem noConflict_append {issues issues' : List Issue} :
    NoConflict (issues ++ issues') ↔ NoConflict issues ∧ NoConflict issues' := by
  simp only [NoConflict, List.mem_append, not_or, forall_and]

/-- A conflict is a repeat. -/
theorem noConflict_filter_isRepeat {issues : List Issue} :
    NoConflict (issues.filter Issue.isRepeat) ↔ NoConflict issues := by
  simp only [NoConflict, List.mem_filter, Issue.isRepeat, and_true]

/-- The owner of a destination tells whether a block at it is a conflict. -/
theorem noConflict_repeatIssue?_iff {line : Nat} {block : Block} :
    NoConflict (repeatIssue? before line block).toList ↔
      ∀ owner, owner? before block = some owner → owner.id = block.id := by
  unfold repeatIssue?
  cases owner? before block with
  | none => simp [NoConflict]
  | some owner =>
      by_cases hid : block.id = owner.id
      · simp [NoConflict, hid]
      · simp [NoConflict, hid, Ne.symm hid]

theorem destinationsDecideIds_concat_iff (hbefore : DestinationsDecideIds before) {block : Block} :
    DestinationsDecideIds (before ++ [block]) ↔
      ∀ owner, owner? before block = some owner → owner.id = block.id := by
  constructor
  · intro hall owner howner
    obtain ⟨hmem, hdestination⟩ := mem_of_owner? howner
    exact hall owner (List.mem_append_left _ hmem) block (by simp) hdestination
  · intro howner
    have hnew : ∀ x ∈ before, x.destination = block.destination → x.id = block.id := by
      intro x hx hdestination
      cases hfound : owner? before block with
      | none =>
          rw [owner?_eq_none_iff, ← hdestination] at hfound
          exact absurd (List.mem_map_of_mem hx) hfound
      | some owner =>
          obtain ⟨hmem, hsame⟩ := mem_of_owner? hfound
          exact (hbefore x hx owner hmem (hdestination.trans hsame.symm)).trans
            (howner owner hfound)
    intro x hx y hy hdestination
    rw [List.mem_append, List.mem_singleton] at hx hy
    rcases hx with hx | rfl
    · rcases hy with hy | rfl
      · exact hbefore x hx y hy hdestination
      · exact hnew x hx hdestination
    · rcases hy with hy | rfl
      · exact (hnew y hy hdestination.symm).symm
      · rfl

/-- No conflict is reported as long as each destination stands for one identity. -/
theorem noConflict_repeatIssues_iff (hbefore : DestinationsDecideIds before)
    (offers : List (Nat × Block)) :
    NoConflict (repeatIssues before offers) ↔
      DestinationsDecideIds (before ++ offers.map Prod.snd) := by
  induction offers generalizing before with
  | nil =>
      rw [List.map_nil, List.append_nil]
      exact ⟨fun _ => hbefore, fun _ _ _ => List.not_mem_nil⟩
  | cons offer offers ih =>
      obtain ⟨line, block⟩ := offer
      have hblocks : before ++ ((line, block) :: offers).map Prod.snd =
          (before ++ [block]) ++ offers.map Prod.snd := by
        simp
      rw [repeatIssues, noConflict_append, noConflict_repeatIssue?_iff,
        ← destinationsDecideIds_concat_iff hbefore, hblocks]
      constructor
      · rintro ⟨hblock, hoffers⟩
        exact (ih hblock).mp hoffers
      · intro hall
        have hblock := hall.mono (List.subset_append_left _ _)
        exact ⟨hblock, (ih hblock).mpr hall⟩

end Block

namespace Builder

open Block (NoConflict DestinationsDecideIds IdsDecideDestinations)

variable {p : Processor}

theorem validBlocks_perm {documents documents' : List Document}
    (h : documents.Perm documents') :
    (validBlocks p documents).Perm (validBlocks p documents') :=
  h.flatMap_right _

/-- The first report is that of the first document. -/
theorem ReportsRepeats.exists_cons {before : List Block} {document : Document}
    {documents : List Document} {reports : List Report}
    (h : ReportsRepeats p before (document :: documents) reports) :
    ∃ report rest, reports = report :: rest ∧
      report.issues.filter Issue.isRepeat = Block.repeatIssues before (offers p document) ∧
      ReportsRepeats p (before ++ (offers p document).map Prod.snd) documents rest := by
  obtain ⟨hlength, hreports⟩ := h
  obtain ⟨report, rest, rfl⟩ := List.exists_of_length_succ reports hlength
  refine ⟨report, rest, rfl, ?_, ?_, ?_⟩
  · obtain ⟨found, hfound, hissues⟩ := hreports [] document documents rfl
    obtain rfl := Option.some.inj hfound
    simpa [validBlocks] using hissues
  · simpa using hlength
  · intro earlier other later hdocuments
    obtain ⟨found, hfound, hissues⟩ :=
      hreports (document :: earlier) other later (by rw [hdocuments]; rfl)
    refine ⟨found, by simpa using hfound, ?_⟩
    rw [hissues]
    simp [validBlocks]

/-- No report of the run has a conflict exactly when each destination stands for one identity. -/
theorem ReportsRepeats.noConflict_iff {before : List Block} {documents : List Document}
    {reports : List Report} (h : ReportsRepeats p before documents reports)
    (hbefore : DestinationsDecideIds before) :
    (∀ report ∈ reports, NoConflict report.issues) ↔
      DestinationsDecideIds (before ++ validBlocks p documents) := by
  induction documents generalizing before reports with
  | nil =>
      obtain rfl := List.eq_nil_of_length_eq_zero h.1
      simp [validBlocks, hbefore]
  | cons document documents ih =>
      obtain ⟨report, rest, rfl, hreport, hrest⟩ := h.exists_cons
      have hvalid : before ++ validBlocks p (document :: documents) =
          (before ++ (offers p document).map Prod.snd) ++ validBlocks p documents := by
        simp [validBlocks]
      have hfirst : NoConflict report.issues ↔
          DestinationsDecideIds (before ++ (offers p document).map Prod.snd) := by
        rw [← Block.noConflict_filter_isRepeat, hreport, Block.noConflict_repeatIssues_iff hbefore]
      rw [List.forall_mem_cons, hfirst, hvalid]
      constructor
      · rintro ⟨hdocument, hdocuments⟩
        exact (ih hrest hdocument).mp hdocuments
      · intro hall
        have hdocument := hall.mono (List.subset_append_left _ _)
        exact ⟨hdocument, (ih hrest hdocument).mpr hall⟩

/-- What a run without a sink comes to, and what its reports say of repeats. -/
theorem addDocuments_none (m : Type → Type) [Monad m] [LawfulMonad m] (ε : Type) {o : Options}
    {b : Builder} (hb : ofOptions o = .ok b) (documents : List Document)
    (hids : IdsDecideDestinations (validBlocks b.processor documents)) :
    ∃ reports : List Report,
      addDocuments (Sink.none : Sink m ε) b documents =
        pure (ofStream b.processor (validBlocks b.processor documents), reports.map Except.ok) ∧
      ReportsRepeats b.processor [] documents reports := by
  have hstart : b = ofStream b.processor [] := eq_ofProcessor_of_ofOptions hb
  have hsink : (Sink.none : Sink m ε).NeverFails := Sink.neverFails_none
  obtain ⟨written, reports, -, hrun, hreports⟩ :=
    addDocuments_ofStream hsink b.processor documents [] hids
  rw [← hstart, Sink.writeAll_none, map_pure] at hrun
  exact ⟨reports, hrun, hreports⟩

/-- Two orders of the same documents, fed without a sink: the counts and the destinations of the
items are the same; and a conflict is reported in both orders or in neither, in which case the
identities of the items are the same too. -/
theorem addDocuments_perm (m : Type → Type) [Monad m] [LawfulMonad m] (ε : Type) {o : Options}
    {b : Builder} (hb : ofOptions o = .ok b) {documents documents' : List Document}
    (hperm : documents.Perm documents')
    (hids : IdsDecideDestinations (validBlocks b.processor documents)) :
    ∃ (final final' : Builder) (reports reports' : List Report),
      addDocuments (Sink.none : Sink m ε) b documents =
        pure (final, reports.map Except.ok) ∧
      addDocuments (Sink.none : Sink m ε) b documents' =
        pure (final', reports'.map Except.ok) ∧
      final'.finish.totalCount = final.finish.totalCount ∧
      final'.finish.uniqueCount = final.finish.uniqueCount ∧
      (∀ destination, destination ∈ final'.finish.items.map Block.destination ↔
        destination ∈ final.finish.items.map Block.destination) ∧
      ((∀ report ∈ reports, NoConflict report.issues) →
        (∀ report ∈ reports', NoConflict report.issues) ∧
        ∀ id, id ∈ final'.finish.items.map Block.id ↔
          id ∈ final.finish.items.map Block.id) := by
  have hblocks : (validBlocks b.processor documents).Perm (validBlocks b.processor documents') :=
    validBlocks_perm hperm
  have hdestinations := Block.map_destination_firstWins_perm hblocks
  have hempty : DestinationsDecideIds [] := nofun
  obtain ⟨reports, hrun, hreports⟩ := addDocuments_none m ε hb documents hids
  obtain ⟨reports', hrun', hreports'⟩ := addDocuments_none m ε hb documents'
    (hids.mono hblocks.symm.subset)
  refine ⟨_, _, reports, reports', hrun, hrun', hblocks.symm.length_eq, ?_, ?_, ?_⟩
  · have hlength := hdestinations.symm.length_eq
    rwa [List.length_map, List.length_map] at hlength
  · exact fun destination => hdestinations.symm.mem_iff
  · intro hnone
    -- That no conflict is reported is a fact about the set of valid blocks, which no order changes.
    have hdecide : DestinationsDecideIds (validBlocks b.processor documents) :=
      (hreports.noConflict_iff hempty).mp hnone
    have hdecide' := hdecide.mono hblocks.symm.subset
    refine ⟨(hreports'.noConflict_iff hempty).mpr hdecide', fun id => ?_⟩
    change id ∈ (Block.firstWins _).map Block.id ↔ id ∈ (Block.firstWins _).map Block.id
    rw [hdecide.mem_map_id_firstWins, hdecide'.mem_map_id_firstWins]
    exact (hblocks.symm.map Block.id).mem_iff

/-- Two documents with one block, which is accepted from whichever comes first. -/
def sharedBlock : List Document :=
  [⟨['1'], "<!-- extract:a -->x<!-- endextract -->".toList⟩,
    ⟨['2'], "<!-- extract:a -->x<!-- endextract -->".toList⟩]

theorem addDocuments_perm_sharedBlock :
    ∃ (p : Processor) (final final' : Builder) (reports reports' : List Report),
      ofOptions { templateWrap := Wrap.Pair.empty } = .ok (ofProcessor p) ∧
      sharedBlock.Perm sharedBlock.reverse ∧
      Block.IdsDecideDestinations (validBlocks p sharedBlock) ∧
      addDocuments (m := Id) (Sink.none : Sink Id Unit) (ofProcessor p) sharedBlock =
        (final, reports.map Except.ok) ∧
      addDocuments (m := Id) (Sink.none : Sink Id Unit) (ofProcessor p) sharedBlock.reverse =
        (final', reports'.map Except.ok) ∧
      final'.finish.totalCount = final.finish.totalCount ∧
      ∀ id, id ∈ final'.finish.items.map Block.id ↔ id ∈ final.finish.items.map Block.id := by
  have hb : ofOptions { templateWrap := Wrap.Pair.empty } = .ok (ofProcessor Block.bare) := rfl
  have hids : Block.IdsDecideDestinations (validBlocks Block.bare sharedBlock) := by
    decide +kernel
  have hduplicates : (addDocuments (m := Id) (Sink.none : Sink Id Unit)
      (ofProcessor Block.bare) sharedBlock).2.all (fun outcome =>
        outcome.toOption.all fun report => report.issues.all Issue.isDuplicate) = true := by
    decide +kernel
  obtain ⟨final, final', reports, reports', hrun, hrun', htotal, -, -, hnone⟩ :=
    addDocuments_perm Id Unit hb (List.reverse_perm sharedBlock).symm hids
  refine ⟨_, final, final', reports, reports', hb, (List.reverse_perm sharedBlock).symm, hids, hrun,
    hrun', htotal, (hnone ?_).2⟩
  intro report hreport line destination hconflict
  rw [hrun, List.all_eq_true] at hduplicates
  have hreport := hduplicates _ (List.mem_map_of_mem hreport)
  have hduplicate := List.all_eq_true.mp hreport _ hconflict
  cases hduplicate

end Builder

end Partials
