import Partials.Proofs.Inventory.Accounting
import Partials.Proofs.Inventory.PartialsOnDisk
import Partials.Proofs.Inventory.Retry
import Partials.Run

/-!
# Dry runs

A run writes the partials of a document before it reads the next one, so a document may be read
where the run has put a partial, or through a directory that it has made. A dry run leaves the tree
as it is and reads each document as it was. Where no document is read from what the run itself has
written, the two have the same reports and the same inventory.
-/

namespace Partials

open Partials.Tree (placeOf NewFilesAt)

namespace Report

/-- The blocks that the documents of the reports have added. -/
def totalAdded : List Report → Nat
  | [] => 0
  | report :: reports => report.added + totalAdded reports

end Report

namespace Builder

variable {m : Type → Type} [Monad m] [LawfulMonad m] {ε ε' σ : Type}

/-- Without a sink, spans are fed as with one that takes all that it is given. -/
theorem addSpans_none_of_eq_ok {sink : Sink (StateM σ) ε} {origin : Text} {b b' : Builder}
    {r r' : Report} {spans : List Span} {s s' : σ}
    (h : addSpans sink origin b r spans s = ((b', .ok r'), s')) :
    addSpans (Sink.none : Sink m ε') origin b r spans = pure (b', .ok r') := by
  induction spans generalizing b r s with
  | nil =>
      obtain ⟨houtcome, -⟩ := Prod.mk.inj h
      obtain ⟨rfl, hreport⟩ := Prod.mk.inj houtcome
      obtain rfl := Except.ok.inj hreport
      rfl
  | cons span spans ih =>
      cases hspan : Block.ofSpan b.processor span origin with
      | error issue =>
          rw [addSpans_of_error hspan] at h ⊢
          exact ih h
      | ok block =>
          cases hobjection : b.objection? span.startLine block with
          | some issue =>
              rw [addSpans_of_objection hspan hobjection] at h ⊢
              exact ih h
          | none =>
              rw [addSpans_of_write hspan hobjection, bind_apply] at h
              rw [addSpans_of_write hspan hobjection, Sink.none, pure_bind]
              cases hwrite : sink block s with
              | mk outcome mid =>
                  rw [hwrite] at h
                  cases outcome with
                  | error e => cases (Prod.mk.inj (Prod.mk.inj h).1).2
                  | ok _ => exact ih h

theorem addDocument_none_of_eq_ok {sink : Sink (StateM σ) ε} {document : Document}
    {b b' : Builder} {r : Report} {s s' : σ}
    (h : b.addDocument sink document s = ((b', .ok r), s')) :
    b.addDocument (Sink.none : Sink m ε') document = pure (b', .ok r) :=
  addSpans_none_of_eq_ok h

theorem exists_addDocument_none (b : Builder) (document : Document) :
    ∃ b' r, b.addDocument (Sink.none : Sink m ε) document = pure (b', .ok r) := by
  obtain ⟨report, _, hrun, -⟩ := addDocument_of_steady
    (Sink.steady_none () : (Sink.none : Sink (StateM Unit) ε).Steady ()) b document
  exact ⟨_, report, addDocument_none_of_eq_ok hrun⟩

/-- A report counts the items that its document adds. -/
theorem length_items_of_addDocument_eq_ok {sink : Sink (StateM σ) ε} {document : Document}
    {b b' : Builder} {r : Report} {s s' : σ}
    (h : b.addDocument sink document s = ((b', .ok r), s')) :
    b'.items.length = b.items.length + r.added := by
  obtain ⟨verdicts, -, hitems, hreport⟩ := addSpans_verdicts h
  have hadded : r.added = (Verdict.items verdicts).length := by
    rw [hreport, Report.foldl_enter, openReport_eq, Nat.zero_add]
  rw [hitems, List.length_append, hadded]

end Builder

namespace Sink

/-- The place of a block's partial. -/
def targetPlace (here : Place) (root : Path) (block : Block) : Place :=
  placeOf here (target root block).text

theorem newFilesAt_of_directory_eq_ok {here : Place} {tag : Text} {root : Path} {block : Block}
    {t t' : Tree} (h : directory (Tree.disk here) tag root block t = (.ok (), t')) :
    NewFilesAt [targetPlace here root block] t t' := by
  obtain ⟨-, -, hfiles⟩ := Files.writeAtomic_changes (writeText_of_directory_eq_ok h).2
  intro place bytes hplace hfile
  have hother : place ≠ placeOf here (target root block).text :=
    fun heq => hplace (List.mem_singleton.mpr heq)
  rw [hfiles, if_neg hother] at hfile
  split at hfile
  · cases hfile
  · exact hfile

theorem Takes.newFilesAt {here : Place} {tag : Text} {root : Path} {blocks : List Block}
    {t t' : Tree} (h : (directory (Tree.disk here) tag root).Takes t blocks t') :
    NewFilesAt (blocks.map (targetPlace here root)) t t' := by
  induction blocks generalizing t with
  | nil =>
      obtain rfl := h
      exact .refl _
  | cons block blocks ih =>
      obtain ⟨mid, hblock, hrest⟩ := h
      exact (newFilesAt_of_directory_eq_ok hblock).trans (ih hrest)

end Sink

namespace Run

variable {here : Place} {sink : Sink (StateM Tree) FileError} {base : Path}
  {b b' : Builder} {file : Text} {files : List Text} {report : Report} {reports : List Report}
  {t t' : Tree}

/-- A text is read if its bytes are. -/
theorem readText_eq_ok_iff {path : Path} {text : Text} :
    (onFile (Files.readText (Tree.disk here) path)).run t = (.ok text, t') ↔
      t' = t ∧ ∃ bytes, t.read here path.text = .ok bytes ∧ Utf8.decode? bytes = some text := by
  change ((((t.read here path.text).bind _).mapError _).mapError _, t) = (.ok text, t') ↔ _
  rw [Prod.mk.injEq, and_comm, eq_comm (a := t)]
  cases hread : t.read here path.text with
  | error e => simp [Except.bind, Except.mapError]
  | ok bytes =>
      cases hdecoded : Utf8.decode? bytes with
      | none => simp [Except.bind, Except.mapError, hdecoded]
      | some found => simp [Except.bind, Except.mapError, hdecoded]

/-- A document is added if it is read and fed to the builder without a failure. -/
theorem addFile_eq_ok_iff :
    (addFile (Tree.disk here) sink base b file).run t = (.ok (b', report), t') ↔
      ∃ bytes text, t.read here (documentPath base file).text = .ok bytes ∧
        Utf8.decode? bytes = some text ∧
        b.addDocument sink ⟨(Path.ofText file).text, text⟩ t = ((b', .ok report), t') := by
  constructor
  · intro h
    obtain ⟨text, mid, hread, hrest⟩ := Files.run_bind_eq_ok h
    obtain ⟨rfl, bytes, hbytes, hdecoded⟩ := readText_eq_ok_iff.mp hread
    obtain ⟨⟨next, outcome⟩, last, hfed, hreport⟩ := Files.run_bind_eq_ok hrest
    obtain ⟨hnext, hlast⟩ := Prod.mk.inj hfed
    refine ⟨bytes, text, hbytes, hdecoded, ?_⟩
    cases outcome with
    | error e => cases (Prod.mk.inj hreport).1
    | ok found =>
        obtain ⟨hfound, rfl⟩ := Prod.mk.inj hreport
        obtain ⟨rfl, rfl⟩ := Prod.mk.inj (Except.ok.inj hfound)
        exact Prod.ext (Except.ok.inj hnext) hlast
  · rintro ⟨bytes, text, hbytes, hdecoded, hfed⟩
    have hread := readText_eq_ok_iff.mpr ⟨rfl, bytes, hbytes, hdecoded⟩
    refine Files.run_bind_eq_ok_iff.mpr ⟨text, t, hread, ?_⟩
    refine Files.run_bind_eq_ok_iff.mpr ⟨(b', .ok report), t', ?_, rfl⟩
    exact congrArg (fun fed => (Except.ok fed.1, fed.2)) hfed

theorem addFiles_cons_eq_ok_iff :
    (addFiles (Tree.disk here) sink base b (file :: files)).run t = (.ok (b', reports), t') ↔
      ∃ next report rest mid,
        (addFile (Tree.disk here) sink base b file).run t = (.ok (next, report), mid) ∧
        (addFiles (Tree.disk here) sink base next files).run mid = (.ok (b', rest), t') ∧
        reports = report :: rest := by
  constructor
  · intro h
    obtain ⟨⟨next, report⟩, mid, hfile, hrest⟩ := Files.run_bind_eq_ok h
    obtain ⟨⟨final, rest⟩, last, hfiles, hreports⟩ := Files.run_bind_eq_ok hrest
    obtain ⟨hfinal, rfl⟩ := Prod.mk.inj hreports
    obtain ⟨rfl, rfl⟩ := Prod.mk.inj (Except.ok.inj hfinal)
    exact ⟨next, report, rest, mid, hfile, hfiles, rfl⟩
  · rintro ⟨next, report, rest, mid, hfile, hfiles, rfl⟩
    refine Files.run_bind_eq_ok_iff.mpr ⟨(next, report), mid, hfile, ?_⟩
    exact Files.run_bind_eq_ok_iff.mpr ⟨(b', rest), t', hfiles, rfl⟩

theorem items_prefix_of_addFiles_eq_ok
    (h : (addFiles (Tree.disk here) sink base b files).run t = (.ok (b', reports), t')) :
    b.items <+: b'.items := by
  induction files generalizing b reports t with
  | nil =>
      obtain ⟨hfinal, -⟩ := Prod.mk.inj h
      obtain ⟨rfl, -⟩ := Prod.mk.inj (Except.ok.inj hfinal)
      exact List.prefix_rfl
  | cons file files ih =>
      obtain ⟨next, report, rest, mid, hfile, hrest, -⟩ := addFiles_cons_eq_ok_iff.mp h
      obtain ⟨bytes, text, -, -, hfed⟩ := addFile_eq_ok_iff.mp hfile
      obtain ⟨written, hitems, -⟩ := Builder.takes_of_addSpans hfed
      exact List.IsPrefix.trans ⟨written, hitems.symm⟩ (ih hrest)

/-- What a run says in the end. -/
def summary (cwd : Text) (options : Options) (dryRun : Bool) (b : Builder)
    (reports : List Report) : Summary :=
  ⟨reports, b.finish, location cwd options.partialsDir, location cwd options.storagePath, dryRun⟩

section

variable {m : Type → Type} [Monad m] [LawfulMonad m] {tag cwd : Text} {options : Options}

theorem execute_of_error {e : Wrap.Error} (h : Builder.ofOptions options = .error e)
    (disk : Disk m) (files : List Text) (dryRun : Bool) :
    execute disk tag cwd options files dryRun = throw (.wrap e) := by
  unfold execute
  rw [h]
  apply ExceptT.ext
  simp

theorem execute_true_of_ok (h : Builder.ofOptions options = .ok b) (disk : Disk m)
    (files : List Text) :
    execute disk tag cwd options files true = (do
      let fed ← addFiles disk Sink.none (location cwd options.base) b files
      pure (summary cwd options true fed.1 fed.2)) := by
  unfold execute
  rw [h]
  exact pure_bind _ _

theorem execute_false_of_ok (h : Builder.ofOptions options = .ok b) (disk : Disk m)
    (files : List Text) :
    execute disk tag cwd options files false = (do
      let fed ← addFiles disk (Sink.directory disk tag (location cwd options.partialsDir))
        (location cwd options.base) b files
      onFile (Store.save disk tag (location cwd options.storagePath) fed.1.finish.toRecord)
      pure (summary cwd options false fed.1 fed.2)) := by
  unfold execute
  rw [h]
  exact pure_bind _ _

end

/-- Whatever becomes of the action, the tree stays as it is. -/
def LeavesTree {α : Type} (action : ExceptT RunError (StateM Tree) α) : Prop :=
  ∀ t, (action.run t).2 = t

theorem leavesTree_pure {α : Type} (a : α) :
    LeavesTree (pure a : ExceptT RunError (StateM Tree) α) := fun _ => rfl

theorem leavesTree_throw {α : Type} (e : RunError) :
    LeavesTree (throw e : ExceptT RunError (StateM Tree) α) := fun _ => rfl

theorem LeavesTree.bind {α β : Type} {action : ExceptT RunError (StateM Tree) α}
    {next : α → ExceptT RunError (StateM Tree) β} (haction : LeavesTree action)
    (hnext : ∀ a, LeavesTree (next a)) : LeavesTree (action >>= next) := by
  intro t
  rw [ExceptT.run_bind, bind_apply, haction t]
  cases (action.run t).1 with
  | ok a => exact hnext a t
  | error e => rfl

theorem leavesTree_readText (path : Path) :
    LeavesTree (onFile (Files.readText (Tree.disk here) path)) := fun _ => rfl

theorem leavesTree_addFile_none (base : Path) (b : Builder) (file : Text) :
    LeavesTree (addFile (Tree.disk here) Sink.none base b file) := by
  apply (leavesTree_readText _).bind
  intro text
  obtain ⟨b', report, hfed⟩ := Builder.exists_addDocument_none (m := StateM Tree)
    (ε := FileError) b ⟨(Path.ofText file).text, text⟩
  rw [hfed]
  exact fun _ => rfl

theorem leavesTree_addFiles_none (base : Path) (b : Builder) (files : List Text) :
    LeavesTree (addFiles (Tree.disk here) Sink.none base b files) := by
  induction files generalizing b with
  | nil => exact leavesTree_pure _
  | cons file files ih =>
      apply (leavesTree_addFile_none base b file).bind
      intro fed
      apply (ih fed.1).bind
      intro _
      exact leavesTree_pure _

theorem leavesTree_execute_true (tag cwd : Text) (options : Options) (files : List Text) :
    LeavesTree (execute (Tree.disk here) tag cwd options files true) := by
  cases hb : Builder.ofOptions options with
  | error e =>
      rw [execute_of_error hb]
      exact leavesTree_throw _
  | ok b =>
      rw [execute_true_of_ok hb]
      apply (leavesTree_addFiles_none _ b files).bind
      intro _
      exact leavesTree_pure _

/-- A document that is not read from the place of an item is added as it is without a sink to the
tree of before, and what is new in the tree is still at places of items. -/
theorem addFile_none_of_eq_ok {tag : Text} {root : Path} {mid : Tree}
    (h : (addFile (Tree.disk here) (Sink.directory (Tree.disk here) tag root) base b file).run
      mid = (.ok (b', report), t'))
    (hnew : NewFilesAt (b.items.map (Sink.targetPlace here root)) t mid)
    (hpresent : t.isPresent here (documentPath base file).text = true)
    (hplace : placeOf here (documentPath base file).text ∉
      b.items.map (Sink.targetPlace here root)) :
    (addFile (Tree.disk here) Sink.none base b file).run t = (.ok (b', report), t) ∧
      NewFilesAt (b'.items.map (Sink.targetPlace here root)) t t' ∧
      b'.items.length = b.items.length + report.added := by
  obtain ⟨bytes, text, hbytes, hdecoded, hfed⟩ := addFile_eq_ok_iff.mp h
  obtain ⟨written, hitems, htakes⟩ := Builder.takes_of_addSpans hfed
  have hbefore := hnew.read_eq_ok hpresent hplace hbytes
  refine ⟨addFile_eq_ok_iff.mpr ⟨bytes, text, hbefore, hdecoded, ?_⟩, ?_,
    Builder.length_items_of_addDocument_eq_ok hfed⟩
  · rw [Builder.addDocument_none_of_eq_ok hfed]
    rfl
  · rw [hitems, List.map_append]
    exact hnew.trans htakes.newFilesAt

/-- As long as no document is read from the place of a partial that is there by then, the files are
added as they are without a sink to the tree of before. -/
theorem addFiles_none_of_eq_ok {tag : Text} {root : Path} {mid : Tree}
    (h : (addFiles (Tree.disk here) (Sink.directory (Tree.disk here) tag root) base b files).run
      mid = (.ok (b', reports), t'))
    (hnew : NewFilesAt (b.items.map (Sink.targetPlace here root)) t mid)
    (hpresent : ∀ file ∈ files, t.isPresent here (documentPath base file).text = true)
    (hunwritten : ∀ i (hi : i < files.length),
      ∀ item ∈ b'.items.take (b.items.length + Report.totalAdded (reports.take i)),
        Sink.targetPlace here root item ≠ placeOf here (documentPath base files[i]).text) :
    (addFiles (Tree.disk here) Sink.none base b files).run t = (.ok (b', reports), t) := by
  induction files generalizing b reports mid with
  | nil =>
      obtain ⟨hfinal, -⟩ := Prod.mk.inj h
      rw [← hfinal]
      rfl
  | cons file files ih =>
      obtain ⟨next, report, rest, last, hfile, hrest, rfl⟩ := addFiles_cons_eq_ok_iff.mp h
      have hplace : placeOf here (documentPath base file).text ∉
          b.items.map (Sink.targetPlace here root) := by
        intro hmem
        obtain ⟨item, hitem, heq⟩ := List.mem_map.mp hmem
        refine hunwritten 0 (Nat.zero_lt_succ _) item ?_ heq
        rw [List.take_zero, Report.totalAdded, Nat.add_zero,
          ← List.prefix_iff_eq_take.mp (items_prefix_of_addFiles_eq_ok h)]
        exact hitem
      obtain ⟨hfirst, hnewNext, hlength⟩ :=
        addFile_none_of_eq_ok hfile hnew (hpresent file List.mem_cons_self) hplace
      have hothers : (addFiles (Tree.disk here) Sink.none base next files).run t =
          (.ok (b', rest), t) := by
        apply ih hrest hnewNext
        · exact fun other hother => hpresent other (List.mem_cons_of_mem _ hother)
        · intro i hi item hitem
          refine hunwritten (i + 1) (Nat.succ_lt_succ hi) item ?_
          rwa [List.take_succ_cons, Report.totalAdded, ← Nat.add_assoc, ← hlength]
      exact addFiles_cons_eq_ok_iff.mpr ⟨next, report, rest, t, hfirst, hothers, rfl⟩

end Run

namespace Summary

/-- The items of the documents before the one with this index. -/
def itemsBefore (s : Summary) (index : Nat) : List Block :=
  s.inventory.items.take (Report.totalAdded (s.reports.take index))

/-- Each document is read from a path that led somewhere before the run, and from another place
than the partials of the documents before it. -/
structure ReadsUnwritten (s : Summary) (here : Place) (t : Tree) (base : Path)
    (files : List Text) : Prop where
  present : ∀ file ∈ files, t.isPresent here (Run.documentPath base file).text = true
  unwritten : ∀ index (h : index < files.length), ∀ item ∈ s.itemsBefore index,
    Sink.targetPlace here s.partialsDir item ≠
      placeOf here (Run.documentPath base files[index]).text

end Summary

namespace Run

theorem exists_ok_of_any {ε α σ : Type} {run : Except ε α × σ} {p : α → Bool}
    (h : run.1.toOption.any p = true) : ∃ a s, run = (.ok a, s) ∧ p a = true := by
  obtain ⟨outcome, s⟩ := run
  cases outcome with
  | error e => exact absurd h Bool.false_ne_true
  | ok a => exact ⟨a, s, rfl, h⟩

/-- A run that succeeds has fed all its files to the builder of its options. -/
theorem execute_eq_ok {here : Place} {tag cwd : Text} {options : Options} {files : List Text}
    {s : Summary} {t t' : Tree}
    (h : (execute (Tree.disk here) tag cwd options files false).run t = (.ok s, t')) :
    ∃ b final reports mid, Builder.ofOptions options = .ok b ∧
      (addFiles (Tree.disk here)
        (Sink.directory (Tree.disk here) tag (location cwd options.partialsDir))
        (location cwd options.base) b files).run t = (.ok (final, reports), mid) ∧
      s = summary cwd options false final reports := by
  cases hb : Builder.ofOptions options with
  | error e =>
      rw [execute_of_error hb] at h
      cases (Prod.mk.inj h).1
  | ok b =>
      rw [execute_false_of_ok hb] at h
      obtain ⟨⟨final, reports⟩, mid, hfiles, hrest⟩ := Files.run_bind_eq_ok h
      obtain ⟨_, saved, -, hreturn⟩ := Files.run_bind_eq_ok hrest
      exact ⟨b, final, reports, mid, rfl, hfiles, (Except.ok.inj (Prod.mk.inj hreturn).1).symm⟩

/-- A dry run leaves the tree as it is. And where a run succeeds and reads no document from what it
has written before, a dry run on the same tree succeeds with the same reports and inventory. -/
theorem execute_dryRun_previews (here : Place) (t : Tree) (tag cwd : Text) (options : Options)
    (files : List Text) :
    ((execute (Tree.disk here) tag cwd options files true).run t).2 = t ∧
    ∀ s t', (execute (Tree.disk here) tag cwd options files false).run t = (.ok s, t') →
      s.ReadsUnwritten here t (location cwd options.base) files →
      (execute (Tree.disk here) tag cwd options files true).run t =
        (.ok { s with dryRun := true }, t) := by
  refine ⟨leavesTree_execute_true tag cwd options files t, ?_⟩
  intro s t' hrun hreads
  obtain ⟨b, final, reports, mid, hb, hfiles, rfl⟩ := execute_eq_ok hrun
  have hempty : b.items = [] := by rw [Builder.eq_ofProcessor_of_ofOptions hb, Builder.ofProcessor]
  have hdry : (addFiles (Tree.disk here) Sink.none (location cwd options.base) b files).run t =
      (.ok (final, reports), t) := by
    apply addFiles_none_of_eq_ok hfiles
    · rw [hempty]
      exact .refl t
    · exact hreads.present
    · intro i hi item hitem
      rw [hempty, List.length_nil, Nat.zero_add] at hitem
      exact hreads.unwritten i hi item hitem
  rw [execute_true_of_ok hb]
  exact Files.run_bind_eq_ok_iff.mpr ⟨(final, reports), t, hdry, rfl⟩

/-- Two pages in the root of a tree. -/
def twoPages (first second : Text) : Tree :=
  ⟨[(["a.html".toList], .file (Utf8.encode first)),
    (["b.html".toList], .file (Utf8.encode second))]⟩

/-- A run over the two pages that writes its partials beside them. -/
def runBeside (t : Tree) (dryRun : Bool) : Except RunError Summary × Tree :=
  (execute (Tree.disk []) ['7'] ['/'] { partialsDir := ['.'] }
    ["a.html".toList, "b.html".toList] dryRun).run t

/-- The first page names itself as the destination of its block. -/
def ownPage : Tree :=
  twoPages "<!-- extract:a.html -->A<!-- endextract -->".toList
    "<!-- extract:c.html -->B<!-- endextract -->".toList

theorem execute_dryRun_previews_ownPage :
    ∃ s t', runBeside ownPage false = (.ok s, t') ∧
      s.ReadsUnwritten [] ownPage (location ['/'] ['.', '/'])
        ["a.html".toList, "b.html".toList] ∧
      s.inventory.uniqueCount = 2 ∧
      runBeside ownPage true = (.ok { s with dryRun := true }, ownPage) := by
  have hfacts : (runBeside ownPage false).1.toOption.any (fun s =>
      decide (s.inventory.uniqueCount = 2 ∧
        (∀ file ∈ ["a.html".toList, "b.html".toList],
          ownPage.isPresent [] (documentPath (location ['/'] ['.', '/']) file).text = true) ∧
        s.itemsBefore 0 = [] ∧
        ∀ item ∈ s.itemsBefore 1, Sink.targetPlace [] s.partialsDir item ≠
          placeOf [] (documentPath (location ['/'] ['.', '/']) "b.html".toList).text)) = true := by
    decide +kernel
  obtain ⟨s, t', hrun, hchecked⟩ := exists_ok_of_any hfacts
  obtain ⟨hcount, hpresent, hfirst, hsecond⟩ := of_decide_eq_true hchecked
  have hreads : s.ReadsUnwritten [] ownPage (location ['/'] ['.', '/'])
      ["a.html".toList, "b.html".toList] := by
    refine ⟨hpresent, ?_⟩
    intro index hindex item hitem
    match index, hindex with
    | 0, _ =>
        rw [hfirst] at hitem
        cases hitem
    | 1, _ => exact hsecond item hitem
  exact ⟨s, t', hrun, hreads, hcount,
    (execute_dryRun_previews [] ownPage ['7'] ['/'] { partialsDir := ['.'] }
      ["a.html".toList, "b.html".toList]).2 s t' hrun hreads⟩

/-- The first page names the second one as the destination of its block. -/
def nextPage : Tree :=
  twoPages "<!-- extract:b.html -->A<!-- endextract -->".toList
    "<!-- extract:c.html -->B<!-- endextract -->".toList

/-- The run finds no block in the second page, which its first page has written over; the dry run
finds the block of the page as it was. -/
theorem execute_dryRun_reads_olderPage :
    ∃ s s' t', runBeside nextPage false = (.ok s, t') ∧
      runBeside nextPage true = (.ok s', nextPage) ∧
      s.reports.map Report.added = [1, 0] ∧ s'.reports.map Report.added = [1, 1] ∧
      s.inventory.uniqueCount = 1 ∧ s'.inventory.uniqueCount = 2 := by
  have hfacts :
      (runBeside nextPage false).1.toOption.any (fun s =>
        s.reports.map Report.added == [1, 0] && s.inventory.uniqueCount == 1) = true ∧
      (runBeside nextPage true).1.toOption.any (fun s =>
        s.reports.map Report.added == [1, 1] && s.inventory.uniqueCount == 2) = true := by
    decide +kernel
  have hsame : (runBeside nextPage true).2 = nextPage := leavesTree_execute_true _ _ _ _ nextPage
  obtain ⟨s, t', hrun, hcounts⟩ := exists_ok_of_any hfacts.1
  obtain ⟨s', last, hdry, hdryCounts⟩ := exists_ok_of_any hfacts.2
  rw [hdry] at hsame
  obtain rfl := hsame
  rw [Bool.and_eq_true, beq_iff_eq, beq_iff_eq] at hcounts hdryCounts
  exact ⟨s, s', t', hrun, hdry, hcounts.1, hdryCounts.1, hcounts.2, hdryCounts.2⟩

/-- A page behind a directory that only the run makes is there for the run alone. -/
example :
    ((execute (Tree.disk []) ['7'] ['/'] {}
        ["a.html".toList, "partials/../b.html".toList] false).run ownPage).1.isOk = true ∧
      ((execute (Tree.disk []) ['7'] ['/'] {}
        ["a.html".toList, "partials/../b.html".toList] true).run ownPage).1.isOk = false := by
  decide +kernel

end Run

end Partials
