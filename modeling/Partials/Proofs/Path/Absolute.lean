import Partials.Proofs.Path.Confinement
import Partials.Tree

/-!
# Joined paths that start at the root

Joining takes leading `./` parts off a segment, and a slash that stood behind them comes first then.
Behind a base this is an idle slash. Without a base the path starts at the root, although the
segment itself is relative and never climbs above its start: `join_of_isContained`.
-/

namespace Partials

namespace Path

/-- The text has a slash behind one leading `./` or more. -/
inductive HidesSlash : Text → Prop
  | slash (t : Text) : HidesSlash ('.' :: '/' :: '/' :: t)
  | here {t : Text} (h : HidesSlash t) : HidesSlash ('.' :: '/' :: t)

theorem hidesSlash_cons_iff {t : Text} :
    HidesSlash ('.' :: '/' :: t) ↔ t.head? = some '/' ∨ HidesSlash t := by
  constructor
  · intro h
    cases h with
    | slash t => exact .inl rfl
    | here h => exact .inr h
  · rintro (hslash | h)
    · obtain ⟨rest, rfl⟩ := List.head?_eq_some_iff.mp hslash
      exact .slash rest
    · exact .here h

theorem head?_stripHere_eq_slash_iff {t : Text} :
    (stripHere t).head? = some '/' ↔ t.head? = some '/' ∨ HidesSlash t := by
  fun_induction stripHere t with
  | case1 t ih =>
      rw [ih, hidesSlash_cons_iff]
      simp
  | case2 t hnot =>
      -- What hides a slash starts with `./`, so it would not be left as it is.
      have hshows : ¬ HidesSlash t := by
        intro h
        cases h with
        | slash rest => exact hnot _ rfl
        | here _ => exact hnot _ rfl
      rw [or_iff_left hshows]

/-- Behind a base the segment has no say in where the path starts. -/
theorem head?_join {p : Path} (hp : p.text ≠ []) (segment : Text) :
    (p.join segment).text.head? = p.text.head? := by
  obtain ⟨c, cs, hcons⟩ := List.exists_cons_of_ne_nil hp
  unfold join
  simp only [if_neg hp]
  split
  · rw [hcons]
    rfl
  · rw [hcons]
    rfl

theorem head?_ne_slash_of_isContained {p : Path} (h : p.isContained = true) :
    p.text.head? ≠ some '/' := by
  rw [isContained, Bool.and_eq_true, Bool.and_eq_true] at h
  exact bne_iff_ne.mp h.1.1

/-- A relative segment makes a path start at the root only if there is no base. -/
theorem head?_join_eq_slash_iff (p : Path) {segment : Text}
    (h : (slashes segment).head? ≠ some '/') :
    (p.join segment).text.head? = some '/' ↔
      p.text.head? = some '/' ∨ p.text = [] ∧ HidesSlash (slashes segment) := by
  by_cases hp : p.text = []
  · rw [join_of_eq_nil hp, head?_stripHere_eq_slash_iff, or_iff_right h, hp]
    simp
  · rw [head?_join hp]
    simp [hp]

/-- The segments of a joined path lead where those of the base and of the segment lead. -/
theorem foldl_step_join_of_isContained (p : Path) {segment : Text}
    (h : (ofText segment).isContained = true) (place : List Text) :
    (segments (p.join segment).text).foldl step place =
      (segments p.text).foldl step place ++ resolve (slashes segment) := by
  have hinside := foldl_step_of_isContained h ((segments p.text).foldl step place)
  by_cases hp : p.text = []
  · rw [join_of_eq_nil hp, foldl_step_stripHere]
    rw [hp] at hinside ⊢
    exact hinside
  · rw [foldl_step_join hp]
    exact hinside

theorem join_slashes (p : Path) (segment : Text) : p.join (slashes segment) = p.join segment := by
  unfold join
  rw [slashes_slashes]

end Path

namespace Sink

/-- A contained destination is joined to the root of a sink and written there. The joined path leads
where the root leads and then where the destination leads. It starts at the root of all places if
the root of the sink does, and else only if the sink has no root and the destination hides a slash
behind leading `./` parts. -/
theorem directory_absolute_iff (root : Path) {destination : Text}
    (h : (Path.ofText destination).isContained = true) :
    ((root.join destination).text.head? = some '/' ↔
      root.text.head? = some '/' ∨ root.text = [] ∧ Path.HidesSlash (Path.slashes destination)) ∧
    (∀ place,
      (Path.segments (root.join destination).text).foldl Path.step place =
        (Path.segments root.text).foldl Path.step place ++
          Path.resolve (Path.slashes destination)) ∧
    ∀ {m : Type → Type} [Monad m] (disk : Disk m) (tag : Text) (block : Block),
      block.destination = destination →
        directory disk tag root block =
          (Files.writeText disk tag (root.join destination) block.template).run := by
  refine ⟨?_, Path.foldl_step_join_of_isContained root h, ?_⟩
  · exact Path.head?_join_eq_slash_iff root (Path.head?_ne_slash_of_isContained h)
  · rintro m _ disk tag block rfl
    rw [directory_eq_writeText disk tag root h]
    exact congrArg (fun target => (Files.writeText disk tag target block.template).run)
      (Path.join_slashes root block.destination)

/-- A slash behind two `./`, one of them written with a backslash, below two roots. -/
theorem directory_absolute_iff_hiddenSlash :
    (Path.ofText ".\\.//x/../y".toList).isContained = true ∧
      ((⟨[]⟩ : Path).join ".\\.//x/../y".toList).text.head? = some '/' ∧
      ((⟨"..".toList⟩ : Path).join ".\\.//x/../y".toList).text.head? ≠ some '/' ∧
      Path.resolve ((⟨"..".toList⟩ : Path).join ".\\.//x/../y".toList).text = [['y']] := by
  have hinside : (Path.ofText ".\\.//x/../y".toList).isContained = true := by decide
  obtain ⟨hempty, -⟩ := directory_absolute_iff ⟨[]⟩ hinside
  obtain ⟨hup, hleads, -⟩ := directory_absolute_iff ⟨"..".toList⟩ hinside
  refine ⟨hinside, ?_, ?_, ?_⟩
  · exact hempty.mpr (.inr ⟨rfl, .here (.slash _)⟩)
  · rw [ne_eq, hup]
    rintro (hslash | ⟨hnil, -⟩)
    · cases hslash
    · cases hnil
  · exact (hleads []).trans (by decide)

/-- A valid block that is written outside the working directory by a sink without a root. -/
theorem directory_escapes_hiddenSlash :
    ∃ block,
      Block.ofSpan ⟨{}, Wrap.Pair.empty⟩ ⟨"extract:.//x".toList, [], 1, 1, true⟩ [] = .ok block ∧
      (Path.ofText block.destination).isContained = true ∧
      ((⟨[]⟩ : Path).join block.destination).text = "/x".toList ∧
      (directory (Tree.disk [['w']]) ['7'] ⟨[]⟩ block
        ⟨[([['w']], .directory)]⟩).2.files.map Prod.fst = [[['x']]] := by
  refine ⟨_, Block.ofSpan_eq_ok_iff.mpr ⟨".//x".toList, Wrap.Pair.empty, ?_, ?_, rfl, rfl⟩, ?_⟩
  · decide
  · decide
  · decide +kernel

end Sink

end Partials
