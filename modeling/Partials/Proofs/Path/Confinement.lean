import Partials.Proofs.Block.Acceptance
import Partials.Proofs.Files.Writing
import Partials.Proofs.Path.Steps
import Partials.Run

/-!
# Partials stay in their directory

A path joined to a directory leads where the path leads from that directory (`foldl_step_join`).
A valid block's destination never climbs above its start, so the sink of a run never refuses it and
writes below the directory of partials only (`Sink.directory_confined`).
-/

namespace Partials

namespace Path

theorem stripHere_isSuffix (t : Text) : segments (stripHere t) <:+ segments t := by
  fun_induction stripHere t with
  | case1 t ih =>
      have hsplit : segments ('.' :: '/' :: t) = ['.'] :: segments t :=
        segments_append_slash ['.'] t
      rw [hsplit]
      exact ih.trans (List.suffix_cons _ _)
  | case2 t => exact List.suffix_rfl

/-- The segments of a joined path are those that lead to the base, up to idle ones, and then those
of the segment without its leading `./`. -/
theorem exists_segments_join {p : Path} (hp : p.text ≠ []) (segment : Text) :
    ∃ front, segments (p.join segment).text = front ++ segments (stripHere (slashes segment)) ∧
      ∀ place, front.foldl step place = (segments p.text).foldl step place := by
  unfold join
  simp only [if_neg hp]
  split
  · next hslash =>
    obtain ⟨front, hfront⟩ := List.getLast?_eq_some_iff.mp hslash
    refine ⟨segments front, ?_, ?_⟩
    · rw [hfront, List.append_assoc, List.singleton_append, segments_append_slash]
    · intro place
      have hempty : segments [] = [[]] := rfl
      rw [hfront, segments_append_slash, hempty, List.foldl_append, List.foldl_cons,
        List.foldl_nil, step_idle _ (Or.inl rfl)]
  · exact ⟨segments p.text, segments_append_slash _ _, fun _ => rfl⟩

/-- Without a base the segment is the path, but for its leading `./`. -/
theorem join_of_eq_nil {p : Path} (hp : p.text = []) (segment : Text) :
    (p.join segment).text = stripHere (slashes segment) := by
  unfold join
  simp only [if_pos hp]

theorem foldl_step_join {p : Path} (hp : p.text ≠ []) (segment : Text) (place : List Text) :
    (segments (p.join segment).text).foldl step place =
      (segments (slashes segment)).foldl step ((segments p.text).foldl step place) := by
  obtain ⟨front, hsegments, hfront⟩ := exists_segments_join hp segment
  rw [hsegments, List.foldl_append, hfront, foldl_step_stripHere]

theorem join_ne_nil {p : Path} (hp : p.text ≠ []) (segment : Text) :
    (p.join segment).text ≠ [] := by
  unfold join
  simp only [if_neg hp]
  split
  · exact List.append_ne_nil_of_left_ne_nil hp _
  · exact List.append_ne_nil_of_left_ne_nil hp _

theorem descend?_isSome_of_isContained {p : Path} (h : p.isContained = true) :
    (descend? 0 (segments p.text)).isSome = true := by
  rw [isContained, Bool.and_eq_true] at h
  exact h.2

/-- A contained path leads from any place to a place below it. -/
theorem foldl_step_of_isContained {p : Path} (h : p.isContained = true) (place : List Text) :
    (segments p.text).foldl step place = place ++ resolve p.text := by
  obtain ⟨depth, hdepth⟩ := Option.isSome_iff_exists.mp (descend?_isSome_of_isContained h)
  have hwalk := foldl_step_append place [] hdepth
  rw [List.append_nil] at hwalk
  exact hwalk

theorem staysBelow_stripHere {root : List Text} {t : Text} (h : StaysBelow root (segments t)) :
    StaysBelow root (segments (stripHere t)) := by
  fun_induction stripHere t with
  | case1 t ih =>
      apply ih
      intro visited hvisited
      have hsplit : segments ('.' :: '/' :: t) = ['.'] :: segments t :=
        segments_append_slash ['.'] t
      have hbelow := h (['.'] :: visited) (by
        rw [hsplit]
        exact List.cons_prefix_cons.mpr ⟨rfl, hvisited⟩)
      rw [List.foldl_cons, step_idle root (Or.inr rfl)] at hbelow
      exact hbelow
  | case2 t => exact h

theorem staysBelow_of_isContained {p : Path} (h : p.isContained = true) (root : List Text) :
    StaysBelow root (segments p.text) :=
  staysBelow_of_descend? (descend?_isSome_of_isContained h) root

end Path

namespace Run

theorem location_ne_nil {cwd : Text} (hcwd : cwd.head? = some '/') (t : Text) :
    (location cwd t).text ≠ [] := by
  have hslashes : ∀ {s : Text}, s.head? = some '/' → Path.slashes s ≠ [] := by
    intro s hs hnil
    rw [List.map_eq_nil_iff.mp hnil] at hs
    simp at hs
  unfold location
  split
  · next habsolute =>
    exact hslashes (by simpa [isAbsolute] using habsolute)
  · exact Path.join_ne_nil (hslashes hcwd) t

end Run

namespace Sink

variable {m : Type → Type} [Monad m]

/-- A contained destination is never refused: the sink writes it. -/
theorem directory_eq_writeText (disk : Disk m) (tag : Text) (root : Path) {block : Block}
    (h : (Path.ofText block.destination).isContained = true) :
    directory disk tag root block =
      (Files.writeText disk tag (root.join (Path.ofText block.destination).text)
        block.template).run := by
  simp only [directory, h, if_true]

/-- A valid block is written below the root that a run resolves for its partials: the sink never
takes its destination for an escape, the target leads where the destination leads from the root,
and no step on the way climbs above the root. -/
theorem directory_confined (cwd partialsDir : Text) (hcwd : cwd.head? = some '/')
    {p : Processor} {span : Span} {origin : Text} {block : Block}
    (hblock : Block.ofSpan p span origin = .ok block) :
    let root := Run.location cwd partialsDir
    let destination := Path.ofText block.destination
    let target := root.join destination.text
    (∀ {m : Type → Type} [Monad m] [LawfulMonad m] (disk : Disk m) (tag : Text),
      directory disk tag root block = (Files.writeText disk tag target block.template).run ∧
        Files.FailsOnlyOnDisk (Files.writeText disk tag target block.template)) ∧
    (∀ {σ : Type} (disk : Disk (StateM σ)) (tag path : Text) (s : σ),
      (directory disk tag root block s).1 ≠ .error (.pathEscape path)) ∧
    Path.resolve target.text = Path.resolve root.text ++ Path.resolve destination.text ∧
    Path.StaysBelow (Path.resolve root.text) (Path.segments destination.text) ∧
    ∃ front behind,
      Path.segments target.text = front ++ behind ∧
      front.foldl Path.step [] = Path.resolve root.text ∧
      behind <:+ Path.segments destination.text ∧
      Path.StaysBelow (Path.resolve root.text) behind := by
  intro root destination target
  have hinside : destination.isContained = true := Block.isContained_of_ofSpan_eq_ok hblock
  have hroot : root.text ≠ [] := Run.location_ne_nil hcwd partialsDir
  have hslashes : Path.slashes destination.text = destination.text :=
    Path.slashes_ofText block.destination
  refine ⟨?_, ?_, ?_, Path.staysBelow_of_isContained hinside _, ?_⟩
  · intro m _ _ disk tag
    exact ⟨directory_eq_writeText disk tag root hinside,
      Files.failsOnlyOnDisk_writeAtomic disk tag target _⟩
  · intro σ disk tag path s
    rw [directory_eq_writeText disk tag root hinside]
    exact (Files.failsOnlyOnDisk_writeAtomic disk tag target _).run_ne_pathEscape s path
  · have hjoin := Path.foldl_step_join hroot destination.text []
    rw [hslashes, Path.foldl_step_of_isContained hinside] at hjoin
    exact hjoin
  · obtain ⟨front, hsegments, hfront⟩ := Path.exists_segments_join hroot destination.text
    rw [hslashes] at hsegments
    refine ⟨front, _, hsegments, hfront [], Path.stripHere_isSuffix _, ?_⟩
    exact Path.staysBelow_stripHere (Path.staysBelow_of_isContained hinside _)

/-- A destination whose `./` hides a slash, below a root written with backslashes. -/
theorem directory_confined_hidden_slash :
    ∃ block,
      Block.ofSpan ⟨{}, Wrap.Pair.empty⟩
        ⟨"extract:.\\.//x/../y.html".toList, [], 1, 2, true⟩ [] = .ok block ∧
      "/w".toList.head? = some '/' ∧
      Path.resolve ((Run.location "/w".toList "..\\out/.".toList).join
        (Path.ofText block.destination).text).text = ["out".toList, "y.html".toList] := by
  have hcwd : "/w".toList.head? = some '/' := rfl
  obtain ⟨block, hblock, hdestination⟩ :
      ∃ block,
        Block.ofSpan ⟨{}, Wrap.Pair.empty⟩
          ⟨"extract:.\\.//x/../y.html".toList, [], 1, 2, true⟩ [] = .ok block ∧
        block.destination = "././/x/../y.html".toList := by
    refine ⟨_, Block.ofSpan_eq_ok_iff.mpr
      ⟨".\\.//x/../y.html".toList, Wrap.Pair.empty, ?_, ?_, rfl, rfl⟩, rfl⟩
    · decide
    · decide
  refine ⟨block, hblock, hcwd, ?_⟩
  have hresolve := (directory_confined "/w".toList "..\\out/.".toList hcwd hblock).2.2.1
  rw [hresolve, hdestination]
  decide

end Sink

end Partials
