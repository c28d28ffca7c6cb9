import Partials.Proofs.Files.AtomicWrite
import Partials.Proofs.Path.FileNames

/-!
# Writes that are all or nothing

A write that fails before its last step has touched no file. The last step moves the file that was
written first onto the path; where the path takes no file that step fails, and the file that was
written first stays (`Prepares.eq_error`). A file that stood under its name before is lost either
way. But for these two a write is all or nothing (`allOrNothing_iff`).
-/

namespace Partials

namespace Tree

variable {t t' : Tree} {cwd : Place} {path : Text}

/-- Idle parts behind a directory lead to it. -/
theorem walk_of_dropIdle {place directory : Place} {parts : List Text}
    (h : t.walk place (Path.Native.dropIdle parts).reverse = .ok directory)
    (hdirectory : t.get? directory = some .directory) :
    t.walk place parts.reverse = .ok directory := by
  fun_induction Path.Native.dropIdle parts with
  | case1 => exact h
  | case2 first => exact h
  | case3 segment next rest hidle ih =>
      have hnowhere : segment = [] ∨ segment = ['.'] := by simpa [Path.Native.isIdle] using hidle
      rw [List.reverse_cons (a := segment), walk_append_singleton, ih h]
      apply step_eq_ok_iff.mpr
      refine ⟨hdirectory, (Path.step_idle _ hnowhere).symm, ?_⟩
      intro hname
      exact absurd hnowhere (isName_iff.mp hname).1
  | case4 segment next rest hidle => exact h

/-- A file can be put at the end of the path: the path ends in a name, and no directory has it. -/
structure TakesFile (t : Tree) (cwd : Place) (path : Text) : Prop where
  checked : checkPath path = .ok ()
  namesFile : Path.NamesFile path
  free : t.get? (placeOf cwd path) ≠ some .directory

instance (t : Tree) (cwd : Place) (path : Text) : Decidable (t.TakesFile cwd path) :=
  decidable_of_iff
    (checkPath path = .ok () ∧ isName (Path.lastSegment path) = true ∧
      t.get? (placeOf cwd path) ≠ some .directory)
    ⟨fun ⟨hchecked, hname, hfree⟩ => ⟨hchecked, Path.namesFile_iff.mpr hname, hfree⟩,
      fun h => ⟨h.checked, Path.namesFile_iff.mp h.namesFile, h.free⟩⟩

/-- A file is moved only where one can be put. -/
theorem takesFile_of_rename_eq_ok {old new : Text} (h : t.rename cwd old new = .ok t') :
    t.TakesFile cwd new := by
  obtain ⟨_, directory, name, -, -, hnames, hfree, -⟩ := rename_eq_ok h
  obtain ⟨front, hsegments, -⟩ := hnames.walk
  refine ⟨hnames.checked, Path.namesFile_iff.mpr ?_, hfree⟩
  rw [Path.lastSegment_of_segments hsegments]
  exact hnames.isName

end Tree

namespace Files

open Partials.Tree (placeOf TakesFile AddsDirectories KeepsDirectories)

theorem isTooLong_of_scratchName {tag name : Text}
    (h : Tree.isTooLong (scratchName tag name) = false) : Tree.isTooLong name = false := by
  have hlength : (Utf8.encode name).length ≤ (Utf8.encode (scratchName tag name)).length := by
    simp only [scratchName, Utf8.encode, List.cons_append, List.flatMap_cons, List.flatMap_append,
      List.length_append]
    omega
  simp only [Tree.isTooLong, decide_eq_false_iff_not] at h ⊢
  omega

/-- The directory of the file that is written first is that of the path. -/
theorem names_of_temporaryPath {t : Tree} {cwd directory : Place} {tag path scratch : Text}
    (htag : '/' ∉ tag)
    (h : Tree.Names t cwd (temporaryPath tag path) directory scratch)
    (htakes : t.TakesFile cwd path) : ∃ name, Tree.Names t cwd path directory name := by
  obtain ⟨front, hsegments⟩ := Path.exists_segments_eq path
  have hname := Path.namesFile_iff.mp htakes.namesFile
  obtain ⟨front', hsegments', hwalk⟩ := h.walk
  rw [segments_temporaryPath hsegments hname htag] at hsegments'
  obtain ⟨rfl, hscratch⟩ := List.append_inj' hsegments' rfl
  obtain rfl := List.singleton_inj.mp hscratch
  rw [start_temporaryPath hsegments hname htag] at hwalk
  have hfront := Tree.walk_of_dropIdle hwalk h.isDirectory
  rw [List.reverse_reverse] at hfront
  exact ⟨Path.lastSegment path, htakes.checked, ⟨front, hsegments, hfront⟩, h.isDirectory, hname,
    isTooLong_of_scratchName h.fits⟩

variable {cwd : Place} {tag : Text} {path : Path} {bytes : Utf8.Bytes} {t t' parents created : Tree}

/-- The directories above the path are there or are made, and then the temporary file is. -/
def Prepares (cwd : Place) (tag : Text) (path : Path) (bytes : Utf8.Bytes)
    (t parents created : Tree) : Prop :=
  (makeParents (Tree.disk cwd) path).run t = (.ok (), parents) ∧
    parents.create cwd (temporaryPath tag path.text) bytes = .ok created

theorem Prepares.fileAt_eq (h : Prepares cwd tag path bytes t parents created) (place : Place) :
    created.fileAt place =
      if place = placeOf cwd (temporaryPath tag path.text) then some bytes else t.fileAt place := by
  rw [(Tree.create_changes h.2).2, (addsDirectories_of_makeParents h.1).fileAt_eq]

/-- A write that does not come to its last step makes no more than directories. -/
theorem writeAtomic_of_not_prepares
    (h : ∀ parents created, ¬ Prepares cwd tag path bytes t parents created) :
    ∃ e t', (writeAtomic (Tree.disk cwd) tag path bytes).run t = (.error e, t') ∧
      AddsDirectories t t' := by
  rw [writeAtomic_eq]
  cases hparents : (makeParents (Tree.disk cwd) path).run t with
  | mk outcome parents =>
      have hadds := addsDirectories_of_makeParents hparents
      cases outcome with
      | error e => exact ⟨e, parents, run_bind_of_error hparents, hadds⟩
      | ok _ =>
          rw [run_bind_of_ok hparents]
          cases hcreate : parents.create cwd (temporaryPath tag path.text) bytes with
          | ok created => exact absurd ⟨hparents, hcreate⟩ (h parents created)
          | error e =>
              have hfailed := run_onPath_update (temporaryPath tag path.text)
                (·.create cwd (temporaryPath tag path.text) bytes) parents
              rw [hcreate] at hfailed
              exact ⟨.io (temporaryPath tag path.text) e, parents, run_bind_of_error hfailed, hadds⟩

theorem Prepares.run_eq (h : Prepares cwd tag path bytes t parents created) :
    (writeAtomic (Tree.disk cwd) tag path bytes).run t =
      match created.rename cwd (temporaryPath tag path.text) path.text with
      | .ok t' => (.ok (), t')
      | .error e => (.error (.io path.text e), created) := by
  have hcreate := run_onPath_update (temporaryPath tag path.text)
    (·.create cwd (temporaryPath tag path.text) bytes) parents
  rw [h.2] at hcreate
  rw [writeAtomic_eq, run_bind_of_ok h.1]
  exact (run_bind_of_ok hcreate).trans (run_onPath_update _ _ created)

theorem Prepares.keepsDirectories (h : Prepares cwd tag path bytes t parents created) :
    KeepsDirectories parents created := (Tree.create_changes h.2).1

/-- Once the temporary file is made, the write succeeds where the path takes a file. -/
theorem Prepares.eq_ok (htag : '/' ∉ tag) (h : Prepares cwd tag path bytes t parents created)
    (htakes : parents.TakesFile cwd path.text) :
    ∃ t', (writeAtomic (Tree.disk cwd) tag path bytes).run t = (.ok (), t') := by
  obtain ⟨directory, scratch, hscratch, -, hcreated⟩ := Tree.create_eq_ok h.2
  obtain ⟨name, hname⟩ := names_of_temporaryPath htag hscratch htakes
  have hold := hscratch.mono h.keepsDirectories
  have hnew := hname.mono h.keepsDirectories
  have hbytes : created.fileAt (placeOf cwd (temporaryPath tag path.text)) = some bytes := by
    rw [h.fileAt_eq, if_pos rfl]
  -- Of the two trees only the place of the temporary file differs, and a file is there.
  have hfree : created.get? (placeOf cwd path.text) ≠ some .directory := by
    intro hdirectory
    rw [hcreated, Tree.get?_put _ hscratch.place_ne_nil] at hdirectory
    split at hdirectory
    · cases hdirectory
    · exact htakes.free hdirectory
  rw [h.run_eq, Tree.rename_of_names hold hnew hbytes hfree]
  exact ⟨_, rfl⟩

/-- Where the path takes no file, the write fails and leaves the temporary file. -/
theorem Prepares.eq_error (h : Prepares cwd tag path bytes t parents created)
    (htakes : ¬ parents.TakesFile cwd path.text) :
    ∃ e, (writeAtomic (Tree.disk cwd) tag path bytes).run t = (.error e, created) := by
  rw [h.run_eq]
  cases hrename : created.rename cwd (temporaryPath tag path.text) path.text with
  | error e => exact ⟨_, rfl⟩
  | ok t' =>
      have hthere := Tree.takesFile_of_rename_eq_ok hrename
      refine absurd ⟨hthere.checked, hthere.namesFile, ?_⟩ htakes
      exact fun hdirectory => hthere.free (h.keepsDirectories _ hdirectory)

/-- Done, the write gives its text to whoever reads the path, and no other file is touched; failed,
it has touched no file. -/
def AllOrNothing (cwd : Place) (tag : Text) (path : Path) (bytes : Utf8.Bytes) (t : Tree) : Prop :=
  ∀ outcome t', (writeAtomic (Tree.disk cwd) tag path bytes).run t = (outcome, t') →
    match outcome with
    | .ok () =>
      (∀ text, Utf8.decode? bytes = some text →
        (readText (Tree.disk cwd) path).run t' = (.ok text, t')) ∧
      ∀ place, place ≠ placeOf cwd path.text → t'.fileAt place = t.fileAt place
    | .error _ => ∀ place, t'.fileAt place = t.fileAt place

/-- The temporary file is another one than that of the path. -/
theorem scratch_ne_place {directory : Place} {name : Text} (htag : '/' ∉ tag)
    (hnames : Tree.Names t cwd path.text directory name) :
    placeOf cwd (temporaryPath tag path.text) ≠ placeOf cwd path.text := by
  obtain ⟨front, hsegments, hwalk⟩ := hnames.walk
  rw [placeOf_temporaryPath hsegments hnames.isName htag, ← Tree.walk_eq_ok hwalk,
    ← hnames.place_eq]
  intro heq
  have hlength := length_lt_length_scratchName tag name
  rw [List.singleton_inj.mp (List.append_cancel_left heq)] at hlength
  omega

/-- Done, a write is all or nothing where no file stood under the name of the temporary file. -/
theorem Prepares.allOrNothing_iff_of_takesFile (htag : '/' ∉ tag)
    (h : Prepares cwd tag path bytes t parents created) (htakes : parents.TakesFile cwd path.text) :
    AllOrNothing cwd tag path bytes t ↔
      t.fileAt (placeOf cwd (temporaryPath tag path.text)) = none := by
  obtain ⟨last, hlast⟩ := h.eq_ok htag htakes
  obtain ⟨-, ⟨directory, name, hnames⟩, hfiles⟩ := writeAtomic_changes hlast
  constructor
  · intro hall
    have hother := scratch_ne_place htag hnames
    rw [← (hall _ last hlast).2 _ hother, hfiles, if_neg hother, if_pos rfl]
  · intro hnone outcome t' hrun
    obtain ⟨rfl, rfl⟩ := Prod.mk.inj (hlast.symm.trans hrun)
    refine ⟨fun text hdecoded => readText_of_writeAtomic hlast hdecoded, ?_⟩
    intro place hplace
    rw [hfiles, if_neg hplace]
    split
    · next heq => rw [heq, hnone]
    · rfl

/-- Failed at its last step, a write is all or nothing where the temporary file was there before. -/
theorem Prepares.allOrNothing_iff_of_not_takesFile
    (h : Prepares cwd tag path bytes t parents created)
    (htakes : ¬ parents.TakesFile cwd path.text) :
    AllOrNothing cwd tag path bytes t ↔
      t.fileAt (placeOf cwd (temporaryPath tag path.text)) = some bytes := by
  obtain ⟨e, hlast⟩ := h.eq_error htakes
  constructor
  · intro hall
    have hsame : ∀ place, created.fileAt place = t.fileAt place := hall _ created hlast
    rw [← hsame, h.fileAt_eq, if_pos rfl]
  · intro hbefore outcome t' hrun
    obtain ⟨rfl, rfl⟩ := Prod.mk.inj (hlast.symm.trans hrun)
    intro place
    rw [h.fileAt_eq]
    split
    · next heq => rw [heq, hbefore]
    · rfl

theorem allOrNothing_of_not_prepares
    (h : ∀ parents created, ¬ Prepares cwd tag path bytes t parents created) :
    AllOrNothing cwd tag path bytes t := by
  intro outcome t' hrun
  obtain ⟨e, last, hlast, hadds⟩ := writeAtomic_of_not_prepares h
  obtain ⟨rfl, rfl⟩ := Prod.mk.inj (hlast.symm.trans hrun)
  exact hadds.fileAt_eq

/-- A write is all or nothing unless the file that is written first is made and either takes the
place of another one or, where the path takes no file, stays. -/
theorem allOrNothing_iff (htag : '/' ∉ tag) :
    AllOrNothing cwd tag path bytes t ↔
      ∀ parents created, Prepares cwd tag path bytes t parents created →
        t.fileAt (placeOf cwd (temporaryPath tag path.text)) =
          if parents.TakesFile cwd path.text then none else some bytes := by
  constructor
  · intro hall parents created hprepares
    split
    · next htakes => exact (hprepares.allOrNothing_iff_of_takesFile htag htakes).mp hall
    · next htakes => exact (hprepares.allOrNothing_iff_of_not_takesFile htakes).mp hall
  · intro hscratch
    by_cases hprepares : ∃ parents created, Prepares cwd tag path bytes t parents created
    · obtain ⟨parents, created, hprepares⟩ := hprepares
      have hbefore := hscratch parents created hprepares
      split at hbefore
      · next htakes => exact (hprepares.allOrNothing_iff_of_takesFile htag htakes).mpr hbefore
      · next htakes => exact (hprepares.allOrNothing_iff_of_not_takesFile htakes).mpr hbefore
    · exact allOrNothing_of_not_prepares fun parents created h => hprepares ⟨parents, created, h⟩

/-- Into a directory that is yet to be made, beside another file. -/
theorem allOrNothing_newDirectory :
    '/' ∉ ['7'] ∧
      AllOrNothing [] ['7'] ⟨"box/a.html".toList⟩ (Utf8.encode ['x'])
        ⟨[(["b.html".toList], .file (Utf8.encode ['y']))]⟩ := by
  refine ⟨by decide, (allOrNothing_iff (by decide)).mpr ?_⟩
  intro parents created hprepares
  have hparents : (makeParents (Tree.disk []) ⟨"box/a.html".toList⟩).run
      ⟨[(["b.html".toList], .file (Utf8.encode ['y']))]⟩ =
        (.ok (), ⟨[(["box".toList], .directory),
          (["b.html".toList], .file (Utf8.encode ['y']))]⟩) := rfl
  obtain rfl := (Prod.mk.inj (hparents.symm.trans hprepares.1)).2
  rfl

/-- A write onto a directory fails at its last step, and the file that was written first stays. -/
theorem write_onto_directory_leaves_scratch :
    (writeAtomic (Tree.disk []) ['7'] ⟨['d']⟩ (Utf8.encode ['x'])).run ⟨[([['d']], .directory)]⟩ =
        (.error (.io ['d'] .isADirectory),
          ⟨[([".d.7.tmp".toList], .file (Utf8.encode ['x'])), ([['d']], .directory)]⟩) ∧
      ¬ AllOrNothing [] ['7'] ⟨['d']⟩ (Utf8.encode ['x']) ⟨[([['d']], .directory)]⟩ := by
  have hrun : (writeAtomic (Tree.disk []) ['7'] ⟨['d']⟩ (Utf8.encode ['x'])).run
      ⟨[([['d']], .directory)]⟩ =
        (.error (.io ['d'] .isADirectory),
          ⟨[([".d.7.tmp".toList], .file (Utf8.encode ['x'])), ([['d']], .directory)]⟩) := rfl
  refine ⟨hrun, ?_⟩
  intro hall
  have hsame := hall _ _ hrun [".d.7.tmp".toList]
  exact absurd hsame (by decide +kernel)

-- A write that succeeds takes a file with it that stood under the name of the file written first.
example :
    (writeAtomic (Tree.disk []) ['7'] ⟨['d']⟩ (Utf8.encode ['x'])).run
        ⟨[([".d.7.tmp".toList], .file (Utf8.encode ['y']))]⟩ =
      (.ok (), ⟨[([['d']], .file (Utf8.encode ['x']))]⟩) := rfl

-- A path that no system takes is refused before a file is made.
example :
    (writeAtomic (Tree.disk []) ['7'] ⟨"a\x00/".toList⟩ (Utf8.encode ['x'])).run Tree.empty =
      (.error (.io ".a\x00.7.tmp".toList .nullInPath), Tree.empty) := rfl

end Files

end Partials
