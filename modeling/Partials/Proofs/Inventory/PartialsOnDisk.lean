import Partials.Proofs.Files.AtomicWrite
import Partials.Proofs.Inventory.Runs
import Partials.Proofs.Path.Confinement

/-!
# The partials of a run on disk

Two destinations may be spelled differently and lead to one place. What a run leaves at the place of
an item is the text of the last item that is written there, unless a later item is written first
under that name.
-/

namespace Partials

namespace Block

/-- Where the destination leads below the directory of partials. -/
def place (b : Block) : Place := Path.resolve (Path.ofText b.destination).text

/-- Where the template is written first. -/
def scratch (tag : Text) (b : Block) : Place :=
  b.place.dropLast ++ [Files.scratchName tag (b.place.getLastD [])]

/-- Writing the block leaves the place as it is. -/
def Spares (tag : Text) (b : Block) (place : Place) : Prop :=
  b.place ≠ place ∧ b.scratch tag ≠ place

/-- The last of the items to be written at the place of `item`, in whatever spelling, has its
template, and no later one uses the place. -/
def Survives (tag : Text) (items : List Block) (item : Block) : Prop :=
  ∃ before last after, items = before ++ last :: after ∧
    last.place = item.place ∧ last.template = item.template ∧
    ∀ later ∈ after, later.Spares tag item.place

/-- What stands at a place once the block is written. -/
def write (tag : Text) (place : Place) (content : Option Utf8.Bytes) (b : Block) :
    Option Utf8.Bytes :=
  if place = b.place then some (Utf8.encode b.template)
  else if place = b.scratch tag then none
  else content

theorem Spares.write_eq {tag : Text} {b : Block} {place : Place} (h : b.Spares tag place)
    (content : Option Utf8.Bytes) : write tag place content b = content := by
  rw [write, if_neg (Ne.symm h.1), if_neg (Ne.symm h.2)]

theorem foldl_write_of_spares {tag : Text} {place : Place} {blocks : List Block}
    (h : ∀ b ∈ blocks, b.Spares tag place) (content : Option Utf8.Bytes) :
    blocks.foldl (write tag place) content = content := by
  induction blocks generalizing content with
  | nil => rfl
  | cons b blocks ih =>
      rw [List.foldl_cons, (h b List.mem_cons_self).write_eq]
      exact ih (fun other hother => h other (List.mem_cons_of_mem _ hother)) content

/-- What stands at a place in the end comes from the last block that uses the place. -/
theorem foldl_write_eq_some {tag : Text} {place : Place} {blocks : List Block}
    {content : Option Utf8.Bytes} {bytes : Utf8.Bytes}
    (h : blocks.foldl (write tag place) content = some bytes) :
    (∃ before last after, blocks = before ++ last :: after ∧ last.place = place ∧
      Utf8.encode last.template = bytes ∧ ∀ later ∈ after, later.Spares tag place) ∨
    (content = some bytes ∧ ∀ b ∈ blocks, b.Spares tag place) := by
  induction blocks generalizing content with
  | nil => exact .inr ⟨h, fun b hb => by cases hb⟩
  | cons b blocks ih =>
      rcases ih h with ⟨before, last, after, rfl, hlast⟩ | ⟨hcontent, hspares⟩
      · exact .inl ⟨b :: before, last, after, rfl, hlast⟩
      · unfold write at hcontent
        split at hcontent
        · next hplace =>
          exact .inl ⟨[], b, blocks, rfl, hplace.symm, Option.some.inj hcontent, hspares⟩
        · next hplace =>
          split at hcontent
          · cases hcontent
          · next hscratch =>
            refine .inr ⟨hcontent, ?_⟩
            intro other hother
            rcases List.mem_cons.mp hother with rfl | hother
            · exact ⟨Ne.symm hplace, Ne.symm hscratch⟩
            · exact hspares other hother

theorem foldl_write_eq_template_iff {tag : Text} {items : List Block} {item : Block}
    (hitem : item ∈ items) (content : Option Utf8.Bytes) :
    items.foldl (write tag item.place) content = some (Utf8.encode item.template) ↔
      item.Survives tag items := by
  constructor
  · intro h
    rcases foldl_write_eq_some h with ⟨before, last, after, hitems, hplace, hbytes, hspares⟩ |
      ⟨-, hspares⟩
    · exact ⟨before, last, after, hitems, hplace, Utf8.encode_injective hbytes, hspares⟩
    · exact absurd rfl (hspares item hitem).1
  · rintro ⟨before, last, after, rfl, hplace, htemplate, hspares⟩
    rw [List.foldl_append, List.foldl_cons, foldl_write_of_spares hspares, write,
      if_pos hplace.symm, htemplate]

end Block

namespace Tree

theorem start_join (cwd : Place) {root : Path} (hroot : root.text ≠ []) (segment : Text) :
    start cwd (root.join segment).text = start cwd root.text := by
  have hhead : (root.join segment).text.head? = root.text.head? := by
    obtain ⟨c, cs, hcons⟩ := List.exists_cons_of_ne_nil hroot
    unfold Path.join
    simp only [if_neg hroot]
    split
    · simp [hcons]
    · simp [hcons]
  rw [start, start, hhead]

end Tree

namespace Sink

open Partials.Tree (placeOf KeepsDirectories)

variable {cwd : Place} {tag : Text} {root : Path}

/-- Where a block is written below the root of the partials. -/
def target (root : Path) (block : Block) : Path := root.join (Path.ofText block.destination).text

theorem placeOf_target (cwd : Place) (hroot : root.text ≠ []) {block : Block}
    (hinside : (Path.ofText block.destination).isContained = true) :
    placeOf cwd (target root block).text = placeOf cwd root.text ++ block.place := by
  rw [placeOf, target, Tree.start_join cwd hroot, Path.foldl_step_join hroot, Path.slashes_ofText,
    Path.foldl_step_of_isContained hinside]
  rfl

/-- The last name of a target is the last name of the destination, so the root is no part of it. -/
theorem exists_place_eq (hroot : root.text ≠ []) {block : Block} {front : List Text} {name : Text}
    (hsegments : Path.segments (target root block).text = front ++ [name])
    (hname : Tree.isName name = true) : ∃ inner, block.place = inner ++ [name] := by
  obtain ⟨base, hjoin, -⟩ := Path.exists_segments_join hroot (Path.ofText block.destination).text
  rw [Path.slashes_ofText] at hjoin
  have hne := Path.segments_ne_nil (Path.stripHere (Path.ofText block.destination).text)
  obtain ⟨inner, last, hlast⟩ : ∃ inner last,
      Path.segments (Path.stripHere (Path.ofText block.destination).text) = inner ++ [last] :=
    ⟨_, _, (List.dropLast_append_getLast hne).symm⟩
  rw [target, hjoin, hlast, ← List.append_assoc] at hsegments
  obtain ⟨-, hsame⟩ := List.append_inj' hsegments rfl
  obtain rfl := List.singleton_inj.mp hsame
  have hstep := Tree.isName_iff.mp hname
  refine ⟨inner.foldl Path.step [], ?_⟩
  rw [Block.place, Path.resolve, ← Path.foldl_step_stripHere, hlast, List.foldl_append,
    List.foldl_cons, List.foldl_nil, Path.step_name _ hstep.1 hstep.2]

/-- A block that the sink takes is written to its target. -/
theorem writeText_of_directory_eq_ok {block : Block} {t t' : Tree}
    (h : directory (Tree.disk cwd) tag root block t = (.ok (), t')) :
    (Path.ofText block.destination).isContained = true ∧
    (Files.writeText (Tree.disk cwd) tag (target root block) block.template).run t =
      (.ok (), t') := by
  by_cases hinside : (Path.ofText block.destination).isContained = true
  · rw [directory_eq_writeText _ tag root hinside] at h
    exact ⟨hinside, h⟩
  · simp only [directory, if_neg hinside] at h
    cases (Prod.mk.inj h).1

/-- A block that the sink takes is what stands at its place afterwards; the place of the file beside
it is empty, and all other files below the root stay. -/
theorem directory_eq_ok (hroot : root.text ≠ []) (htag : '/' ∉ tag) {block : Block} {t t' : Tree}
    (h : directory (Tree.disk cwd) tag root block t = (.ok (), t')) :
    KeepsDirectories t t' ∧
    (∃ directory name, Tree.Names t' cwd (target root block).text directory name) ∧
    placeOf cwd (target root block).text = placeOf cwd root.text ++ block.place ∧
    ∀ place, t'.fileAt (placeOf cwd root.text ++ place) =
      block.write tag place (t.fileAt (placeOf cwd root.text ++ place)) := by
  obtain ⟨hinside, hwrite⟩ := writeText_of_directory_eq_ok h
  obtain ⟨directory, name, hnames, hkeeps, hfiles⟩ := Files.writeAtomic_eq_ok htag hwrite
  have hplace := placeOf_target cwd hroot hinside
  refine ⟨hkeeps, ⟨directory, name, hnames⟩, hplace, ?_⟩
  obtain ⟨front, hsegments, -⟩ := hnames.walk
  obtain ⟨inner, hinner⟩ := exists_place_eq hroot hsegments hnames.isName
  have hdirectory : directory = placeOf cwd root.text ++ inner := by
    have hsame : directory ++ [name] = placeOf cwd (target root block).text := hnames.place_eq
    rw [hplace, hinner, ← List.append_assoc] at hsame
    exact List.append_cancel_right hsame
  intro place
  rw [hfiles, Block.write, Block.scratch, hinner, hdirectory]
  simp only [List.append_assoc, List.append_cancel_left_eq, List.dropLast_concat,
    List.getLastD_concat]

/-- Once the sink has taken the blocks, each place below the root holds what the last block that
uses it left there. -/
theorem Takes.fileAt_eq (hroot : root.text ≠ []) (htag : '/' ∉ tag) {blocks : List Block}
    {t t' : Tree} (h : (directory (Tree.disk cwd) tag root).Takes t blocks t') :
    KeepsDirectories t t' ∧
    (∀ block ∈ blocks,
      (∃ directory name, Tree.Names t' cwd (target root block).text directory name) ∧
      placeOf cwd (target root block).text = placeOf cwd root.text ++ block.place) ∧
    ∀ place, t'.fileAt (placeOf cwd root.text ++ place) =
      blocks.foldl (Block.write tag place) (t.fileAt (placeOf cwd root.text ++ place)) := by
  induction blocks generalizing t with
  | nil =>
      obtain rfl := h
      exact ⟨.refl _, fun block hblock => (by cases hblock), fun _ => rfl⟩
  | cons block blocks ih =>
      obtain ⟨mid, hblock, hrest⟩ := h
      obtain ⟨hkeeps, ⟨directory, name, hnames⟩, hplace, hfiles⟩ :=
        directory_eq_ok hroot htag hblock
      obtain ⟨hkeepsRest, hall, hfilesRest⟩ := ih hrest
      refine ⟨hkeeps.trans hkeepsRest, ?_, ?_⟩
      · intro other hother
        rcases List.mem_cons.mp hother with rfl | hother
        · exact ⟨⟨directory, name, hnames.mono hkeepsRest⟩, hplace⟩
        · exact hall other hother
      · intro place
        rw [hfilesRest, hfiles, List.foldl_cons]

end Sink

namespace Builder

/-- After a run whose documents all succeed, the file of an item holds the item's template exactly
when the item survives. The tag is a part of a file's name, so it holds no slash. -/
theorem read_eq_template_iff_survives {o : Options} {b final : Builder}
    (hb : ofOptions o = .ok b) {root : Path} (hroot : root.text ≠ []) {tag : Text}
    (htag : '/' ∉ tag) {cwd : Place} {documents : List Document} {reports : List Report}
    {t t' : Tree}
    (hrun : addDocuments (Sink.directory (Tree.disk cwd) tag root) b documents t =
      ((final, reports.map Except.ok), t')) :
    ∀ item ∈ final.finish.items,
      t'.read cwd (root.join (Path.ofText item.destination).text).text =
          .ok (Utf8.encode item.template) ↔
        item.Survives tag final.finish.items := by
  intro item hitem
  have hempty : b.items = [] := by rw [eq_ofProcessor_of_ofOptions hb, ofProcessor]
  obtain ⟨written, hitems, htakes⟩ := takes_of_addDocuments hrun
  rw [hempty, List.nil_append] at hitems
  have hfinal : final.finish.items = written := hitems
  rw [hfinal] at hitem ⊢
  obtain ⟨-, hall, hfiles⟩ := htakes.fileAt_eq hroot htag
  obtain ⟨⟨directory, name, hnames⟩, hplace⟩ := hall item hitem
  rw [← Block.foldl_write_eq_template_iff hitem (t.fileAt (Tree.placeOf cwd root.text ++ item.place)),
    ← hfiles, ← hplace]
  exact hnames.read_eq_ok_iff

/-- The directory of partials in `emptyRun`. -/
def partialsRoot : Path := ⟨"/partials".toList⟩

/-- A run with the default options that starts from an empty tree. -/
def emptyRun (documents : List Document) : (Builder × List (Except FileError Report)) × Tree :=
  addDocuments (Sink.directory (Tree.disk []) ['7'] partialsRoot)
    (ofProcessor ⟨{}, Wrap.Pair.empty⟩) documents Tree.empty

/-- A run whose documents all succeed and that leaves two items. -/
theorem exists_eq_of_two_items {run : (Builder × List (Except FileError Report)) × Tree}
    (hok : run.1.2.all Except.isOk = true) (hlength : run.1.1.finish.items.length = 2) :
    ∃ (final : Builder) (reports : List Report) (t : Tree) (first second : Block),
      run = ((final, reports.map Except.ok), t) ∧ final.finish.items = [first, second] := by
  obtain ⟨⟨final, outcomes⟩, t⟩ := run
  obtain ⟨reports, rfl⟩ := exists_reports_of_all_isOk hok
  obtain ⟨first, second, hitems⟩ := List.length_eq_two.mp hlength
  exact ⟨final, reports, t, first, second, rfl, hitems⟩

/-- A block that is left open is kept, and blocks without a brand get one. -/
def keepingOptions : Options := { unterminated := .closeAtEnd, defaults := { brand := "b".toList } }

/-- The working directory of `neighbours`, with an older file where the first block goes. -/
def olderPartials : Tree :=
  ⟨[([['w']], .directory), ([['w'], ['p']], .directory),
    ([['w'], ['p'], "a.html".toList], .file (Utf8.encode "old".toList))]⟩

/-- A run whose second document puts a file beside that of the first, on a way through a directory
that is yet to be made. -/
def neighbours : (Builder × List (Except FileError Report)) × Tree :=
  addDocuments (Sink.directory (Tree.disk [['w']]) ['7'] ⟨['p']⟩)
    (ofProcessor ⟨keepingOptions, Wrap.Pair.empty⟩)
    [⟨['1'], "<!-- extract:.\\a.html -->A<!-- endextract -->".toList⟩,
      ⟨['2'], "<!-- extract:x/../.b.html -->B".toList⟩] olderPartials

/-- The later item is written first as another file and ends at another place, so it spares the file
of the earlier one. -/
theorem read_eq_template_neighbours :
    ∃ (final : Builder) (reports : List Report) (t : Tree) (earlier later : Block),
      ofOptions keepingOptions = .ok (ofProcessor ⟨keepingOptions, Wrap.Pair.empty⟩) ∧
      (⟨['p']⟩ : Path).text ≠ [] ∧ '/' ∉ ['7'] ∧
      neighbours = ((final, reports.map Except.ok), t) ∧
      final.finish.items = [earlier, later] ∧ later.Spares ['7'] earlier.place ∧
      t.read [['w']] ((⟨['p']⟩ : Path).join (Path.ofText earlier.destination).text).text =
        .ok (Utf8.encode earlier.template) := by
  have hb : ofOptions keepingOptions = .ok (ofProcessor ⟨keepingOptions, Wrap.Pair.empty⟩) := rfl
  have hroot : (⟨['p']⟩ : Path).text ≠ [] := by decide
  have htag : '/' ∉ ['7'] := by decide
  have hfacts :
      neighbours.1.2.all Except.isOk = true ∧ neighbours.1.1.finish.items.length = 2 ∧
      ∀ earlier ∈ neighbours.1.1.finish.items.head?,
        ∀ later ∈ neighbours.1.1.finish.items.getLast?,
          later.place ≠ earlier.place ∧ later.scratch ['7'] ≠ earlier.place := by
    decide +kernel
  obtain ⟨hok, hlength, hplaces⟩ := hfacts
  obtain ⟨final, reports, t, earlier, later, hrun, hitems⟩ := exists_eq_of_two_items hok hlength
  rw [hrun, hitems] at hplaces
  have hspares : later.Spares ['7'] earlier.place := hplaces earlier rfl later rfl
  refine ⟨final, reports, t, earlier, later, hb, hroot, htag, hrun, hitems, hspares, ?_⟩
  have hsurvives : earlier.Survives ['7'] final.finish.items := by
    refine ⟨[], earlier, [later], hitems, rfl, rfl, ?_⟩
    intro other hother
    rw [List.mem_singleton.mp hother]
    exact hspares
  have hearlier : earlier ∈ final.finish.items := by
    rw [hitems]
    exact List.mem_cons_self
  exact (read_eq_template_iff_survives hb hroot htag hrun earlier hearlier).mpr hsurvives

/-- Two destinations of one place. -/
def respelled : List Document :=
  [⟨[], ("<!-- extract:a.html -->FIRST<!-- endextract --> " ++
    "<!-- extract:./a.html -->SECOND<!-- endextract -->").toList⟩]

/-- The second block is accepted as an item of its own and replaces the text of the first. -/
theorem respelled_overwrites :
    ∃ (final : Builder) (reports : List Report) (t : Tree) (first second : Block),
      ofOptions {} = .ok (ofProcessor ⟨{}, Wrap.Pair.empty⟩) ∧
      emptyRun respelled = ((final, reports.map Except.ok), t) ∧
      final.finish.items = [first, second] ∧ first.template ≠ second.template ∧
      t.read [] (partialsRoot.join (Path.ofText first.destination).text).text =
        .ok (Utf8.encode second.template) := by
  have hfacts :
      (emptyRun respelled).1.2.all Except.isOk = true ∧
      (emptyRun respelled).1.1.finish.items.length = 2 ∧
      ∀ first ∈ (emptyRun respelled).1.1.finish.items.head?,
        ∀ second ∈ (emptyRun respelled).1.1.finish.items.getLast?,
          first.template ≠ second.template ∧
          ((emptyRun respelled).2.read []
            (partialsRoot.join (Path.ofText first.destination).text).text).toOption =
              some (Utf8.encode second.template) := by
    decide +kernel
  obtain ⟨hok, hlength, hfiles⟩ := hfacts
  obtain ⟨final, reports, t, first, second, hrun, hitems⟩ := exists_eq_of_two_items hok hlength
  rw [hrun, hitems] at hfiles
  obtain ⟨hne, hread⟩ := hfiles first rfl second rfl
  refine ⟨final, reports, t, first, second, rfl, hrun, hitems, hne, ?_⟩
  cases hresult : t.read [] (partialsRoot.join (Path.ofText first.destination).text).text with
  | error e =>
      rw [hresult] at hread
      cases hread
  | ok bytes =>
      rw [hresult] at hread
      rw [Option.some.inj hread]

end Builder

end Partials
