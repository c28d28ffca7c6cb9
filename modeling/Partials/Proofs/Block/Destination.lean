import Partials.Proofs.Inventory.PartialsOnDisk
import Partials.Proofs.Path.FileNames
import Partials.Proofs.Text.Trimming

/-!
# Destinations that are no files

A valid block has a destination, and it stays inside the directory of partials. Whether a file can
have it depends on the last part of what the annotation says (`namesFile_destination_iff`): a
destination such as `box/` or `.` is accepted, and every write to it fails.
-/

namespace Partials

namespace Block

/-- The part of a written destination that is to be the name of the file. Flattening looks for it
before the slashes at the end. -/
def Target.lastPart (flatten : Bool) (written : Text) : Text :=
  let path := Path.ofText written
  Path.lastSegment (if flatten then path.trimmed else path.text)

theorem ofText_text_ne_nil {written : Text} (h : written ≠ []) : (Path.ofText written).text ≠ [] :=
  mt List.map_eq_nil_iff.mp h

theorem Target.destination_flat (written : Text) :
    (Target.of true written).destination =
      if lastPart true written = [] then (Path.ofText written).text else lastPart true written := by
  change (Path.ofText written).fileName?.getD (Path.ofText written).text = _
  rw [Path.fileName?_eq]
  change (if lastPart true written = [] then none else some (lastPart true written)).getD _ = _
  split
  · rfl
  · rfl

theorem Target.destination_ne_nil {written : Text} (h : written ≠ []) (flatten : Bool) :
    (Target.of flatten written).destination ≠ [] := by
  cases flatten with
  | false => exact ofText_text_ne_nil h
  | true =>
      rw [destination_flat]
      split
      · exact ofText_text_ne_nil h
      · next hlast => exact hlast

/-- What leads to a destination that stays inside has a name. -/
theorem Target.lastPart_true_ne_nil {flatten : Bool} {written : Text} (hne : written ≠ [])
    (hinside : (Path.ofText (Target.of flatten written).destination).isContained = true) :
    lastPart true written ≠ [] := by
  intro hnil
  have hroot := Path.head?_of_lastSegment_trimmed_eq_nil (ofText_text_ne_nil hne) hnil
  have hdestination : (Target.of flatten written).destination = (Path.ofText written).text := by
    cases flatten with
    | false => rfl
    | true => rw [destination_flat, if_pos hnil]
  rw [hdestination, Path.isContained, Path.ofText, Path.slashes_ofText, hroot] at hinside
  simp at hinside

/-- A destination that stays inside ends in the last part of what was written. -/
theorem Target.lastSegment_destination {flatten : Bool} {written : Text} (hne : written ≠ [])
    (hinside : (Path.ofText (Target.of flatten written).destination).isContained = true) :
    Path.lastSegment (Target.of flatten written).destination = lastPart flatten written := by
  have hlast := lastPart_true_ne_nil hne hinside
  cases flatten with
  | false => rfl
  | true =>
      rw [destination_flat, if_neg hlast]
      exact Path.lastSegment_of_slash_not_mem (Path.slash_not_mem_lastSegment _)

theorem Target.slashes_destination (flatten : Bool) (written : Text) :
    Path.slashes (Target.of flatten written).destination =
      (Target.of flatten written).destination := by
  cases flatten with
  | false => exact Path.slashes_ofText written
  | true =>
      rw [destination_flat]
      split
      · exact Path.slashes_ofText written
      · apply Path.slashes_of_backslash_not_mem
        intro hmem
        have htrimmed := Path.mem_of_mem_lastSegment hmem
        exact Path.backslash_not_mem_slashes written
          ((Text.dropEndWhile_isPrefix _ _).subset htrimmed)

theorem destination?_ne_nil {d : Directives} {written : Text}
    (h : d.destination? = some written) : written ≠ [] := by
  unfold Directives.destination? at h
  split at h
  · obtain rfl := Option.some.inj h
    exact List.cons_ne_nil _ _
  · cases h

end Block

/-- A destination that is no name of a file is refused by every tree. -/
theorem Sink.directory_fails_of_not_namesFile (cwd : Place) (tag : Text) (root : Path)
    {block : Block} (h : ¬ Path.NamesFile (Path.ofText block.destination).text) (t : Tree) :
    ∃ cause t', directory (Tree.disk cwd) tag root block t = (.error cause, t') := by
  cases hrun : directory (Tree.disk cwd) tag root block t with
  | mk answer t' =>
      cases answer with
      | error cause => exact ⟨cause, t', rfl⟩
      | ok _ =>
          unfold directory at hrun
          split at hrun
          · obtain ⟨place, name, hnames⟩ := Files.names_of_writeAtomic_eq_ok hrun
            obtain ⟨front, hsegments, -⟩ := hnames.walk
            have hlast := Path.lastSegment_join root (Path.ofText block.destination).text
            rw [Path.lastSegment_of_segments hsegments, Path.slashes_ofText] at hlast
            exact absurd (Path.namesFile_iff.mpr (hlast ▸ hnames.isName)) h
          · cases (Prod.mk.inj hrun).1

namespace Block

/-- The destination of a valid block is not empty. It can name a file exactly when the last part of
what the annotation says is a name, and where it is none, no tree lets the block be written. -/
theorem namesFile_destination_iff {p : Processor} {span : Span} {origin : Text} {block : Block}
    (h : ofSpan p span origin = .ok block) :
    ∃ written, (Directives.parse span.label).destination? = some written ∧
      block.destination ≠ [] ∧
      (Path.NamesFile block.destination ↔
        Tree.isName (Target.lastPart p.options.flatten written) = true) ∧
      (¬ Path.NamesFile block.destination →
        ∀ (cwd : Place) (tag : Text) (root : Path) (t : Tree),
          ∃ cause t', Sink.directory (Tree.disk cwd) tag root block t = (.error cause, t')) := by
  obtain ⟨written, wrap, hwritten, hinside, -, rfl⟩ := ofSpan_eq_ok_iff.mp h
  have hne : written ≠ [] := destination?_ne_nil hwritten
  refine ⟨written, hwritten, Target.destination_ne_nil hne _, ?_, ?_⟩
  · rw [Path.namesFile_iff]
    change Tree.isName (Path.lastSegment (Target.of p.options.flatten written).destination) = true ↔
      _
    rw [Target.lastSegment_destination hne hinside]
  · intro hnot cwd tag root t
    apply Sink.directory_fails_of_not_namesFile
    change ¬ Path.NamesFile (Path.slashes (Target.of p.options.flatten written).destination)
    rw [Target.slashes_destination]
    exact hnot

/-- Default options, except that destinations are flattened. -/
def flat : Processor := ⟨{ flatten := true }, Wrap.Pair.empty⟩

/-- A name between a backslash and a slash. -/
def flatSpan : Span := ⟨"extract:box\\card.html/".toList, [], 1, 1, true⟩

theorem namesFile_destination_flatSpan :
    ∃ block, ofSpan flat flatSpan [] = .ok block ∧ block.destination = "card.html".toList ∧
      Path.NamesFile block.destination := by
  have hwritten : (Directives.parse flatSpan.label).destination? =
      some "box\\card.html/".toList := by
    decide +kernel
  obtain ⟨block, hblock, hdestination⟩ :
      ∃ block, ofSpan flat flatSpan [] = .ok block ∧ block.destination = "card.html".toList := by
    refine ⟨_, ofSpan_eq_ok_iff.mpr ⟨_, Wrap.Pair.empty, hwritten, ?_, ?_, rfl⟩, ?_⟩
    · decide
    · decide +kernel
    · decide
  refine ⟨block, hblock, hdestination, ?_⟩
  obtain ⟨written, hsame, -, hnames, -⟩ := namesFile_destination_iff hblock
  rw [hwritten] at hsame
  obtain rfl := Option.some.inj hsame
  exact hnames.mpr (by decide)

end Block

namespace Builder

/-- A block whose destination ends in a slash, and one that has a file. -/
def slashPage : List Document :=
  [⟨[], ("<!-- extract:box/ -->A<!-- endextract -->" ++
    "<!-- extract:ok.html -->B<!-- endextract -->").toList⟩]

/-- The first block is accepted and cannot be written, so its document fails and the second block is
lost. -/
theorem slash_destination_aborts :
    ∃ block,
      Block.ofSpan ⟨{}, Wrap.Pair.empty⟩ ⟨"extract:box/".toList, ['A'], 1, 1, true⟩ [] =
        .ok block ∧
      block.destination = "box/".toList ∧ ¬ Path.NamesFile block.destination ∧
      (emptyRun slashPage).1.2.all Except.isOk = false ∧ (emptyRun slashPage).1.1.items = [] := by
  obtain ⟨block, hblock, hdestination⟩ :
      ∃ block,
        Block.ofSpan ⟨{}, Wrap.Pair.empty⟩ ⟨"extract:box/".toList, ['A'], 1, 1, true⟩ [] =
          .ok block ∧
        block.destination = "box/".toList := by
    refine ⟨_, Block.ofSpan_eq_ok_iff.mpr
      ⟨"box/".toList, Wrap.Pair.empty, ?_, ?_, rfl, rfl⟩, rfl⟩
    · decide
    · decide
  have hrun : (emptyRun slashPage).1.2.all Except.isOk = false ∧
      (emptyRun slashPage).1.1.items = [] := by
    decide +kernel
  refine ⟨block, hblock, hdestination, ?_, hrun⟩
  intro hnames
  apply hnames.no_slash
  rw [hdestination]
  rfl

end Builder

end Partials
