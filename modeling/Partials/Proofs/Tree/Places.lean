import Partials.Proofs.Path.Steps
import Partials.Tree

/-!
# Where paths lead in a tree

A walk that a tree allows is the walk of the path's segments, whatever the tree holds. So a path has
one place, and operations on it that succeed are about that place.
-/

namespace Partials.Tree

/-- The place of a path, without asking any tree. -/
def placeOf (cwd : Place) (path : Text) : Place :=
  (Path.segments path).foldl Path.step (start cwd path)

theorem isName_iff {segment : Text} :
    isName segment = true ↔ ¬ (segment = [] ∨ segment = ['.']) ∧ segment ≠ ['.', '.'] := by
  simp [isName, and_assoc]

/-- A step that a tree allows is the step of the segment, from a directory, and to something that
is there if the segment is a name. -/
theorem step_eq_ok_iff {t : Tree} {place next : Place} {segment : Text} :
    t.step place segment = .ok next ↔
      t.get? place = some .directory ∧ next = Path.step place segment ∧
        (isName segment = true → isTooLong segment = false ∧ (t.get? next).isSome = true) := by
  have hok : ∀ there : Place, (Except.ok there : Except OsError Place) = .ok next ↔ next = there :=
    fun there => ⟨fun h => (Except.ok.inj h).symm, fun h => by rw [h]⟩
  unfold step Path.step
  rw [isName_iff]
  rcases t.get? place with _ | _ | bytes
  · simp
  · by_cases hidle : segment = [] ∨ segment = ['.']
    · simp [hidle, hok]
    · by_cases hup : segment = ['.', '.']
      · simp [hup, hok]
      · simp only [if_neg hidle, if_neg hup]
        by_cases hlong : isTooLong segment = true
        · simp [hlong, hidle, hup]
        · by_cases hthere : (t.get? (place ++ [segment])).isSome = true
          · rw [if_neg hlong, if_pos hthere]
            constructor
            · intro h
              obtain rfl := Except.ok.inj h
              exact ⟨trivial, rfl, fun _ => ⟨by simpa using hlong, hthere⟩⟩
            · rintro ⟨-, rfl, -⟩
              rfl
          · rw [if_neg hlong, if_neg hthere]
            constructor
            · intro h
              cases h
            · rintro ⟨-, rfl, h⟩
              exact absurd (h ⟨hidle, hup⟩).2 hthere
  · simp

theorem walk_cons_eq_ok {t : Tree} {place last : Place} {segment : Text} {rest : List Text} :
    t.walk place (segment :: rest) = .ok last ↔
      ∃ next, t.step place segment = .ok next ∧ t.walk next rest = .ok last := by
  unfold walk
  rw [List.foldlM_cons]
  cases t.step place segment with
  | error e =>
      constructor
      · intro h
        cases h
      · rintro ⟨next, h, -⟩
        cases h
  | ok next =>
      constructor
      · exact fun h => ⟨next, rfl, h⟩
      · rintro ⟨_, hnext, h⟩
        obtain rfl := Except.ok.inj hnext
        exact h

theorem walk_append_singleton {t : Tree} {place : Place} {front : List Text} {last : Text} :
    t.walk place (front ++ [last]) = (do t.step (← t.walk place front) last) := by
  simp [walk]

theorem walk_eq_ok {t : Tree} {place last : Place} {segments : List Text}
    (h : t.walk place segments = .ok last) : last = segments.foldl Path.step place := by
  induction segments generalizing place with
  | nil => exact (Except.ok.inj h).symm
  | cons segment rest ih =>
      obtain ⟨next, hnext, hrest⟩ := walk_cons_eq_ok.mp h
      rw [List.foldl_cons, ← (step_eq_ok_iff.mp hnext).2.1]
      exact ih hrest

theorem foldl_step_of_idle (place : Place) {segments : List Text}
    (h : ∀ segment ∈ segments, segment = []) : segments.foldl Path.step place = place := by
  induction segments with
  | nil => rfl
  | cons segment rest ih =>
      rw [List.foldl_cons, Path.step_idle _ (Or.inl (h segment List.mem_cons_self))]
      exact ih fun other hother => h other (List.mem_cons_of_mem _ hother)

/-- The end of a path whose target is a name: the walk to its directory, the name, and empty
segments behind it. -/
structure EndsAt (t : Tree) (cwd : Place) (path : Text) (found : Target)
    (front behind : List Text) : Prop where
  checked : checkPath path = .ok ()
  segments : Path.segments path = front ++ found.last :: behind
  idle : ∀ segment ∈ behind, segment = []
  walk : t.walk (start cwd path) front = .ok found.directory
  isDirectory : t.get? found.directory = some .directory
  behind_nil : found.slash = false → behind = []

theorem target_eq_ok {t : Tree} {cwd : Place} {path : Text} {found : Target}
    (h : t.target cwd path = .ok found) (hname : isName found.last = true) :
    ∃ front behind, EndsAt t cwd path found front behind := by
  unfold target at h
  cases hcheck : checkPath path with
  | error e =>
      rw [hcheck] at h
      cases h
  | ok _ =>
      rw [hcheck] at h
      let parts := (Path.segments path).reverse.dropWhile (· == [])
      let empties := (Path.segments path).reverse.takeWhile (· == [])
      have hparts : (Path.segments path).reverse = empties ++ parts :=
        (List.takeWhile_append_dropWhile ..).symm
      cases hwalk : t.walk (start cwd path) parts.tail.reverse with
      | error e =>
          simp only [bind, Except.bind, parts, hwalk] at h
          cases h
      | ok directory =>
          simp only [bind, Except.bind, parts, hwalk] at h
          split at h
          · next hdirectory =>
            have hfound : found = ⟨directory, parts.headD [],
                decide (parts.length < (Path.segments path).reverse.length)⟩ :=
              (Except.ok.inj h).symm
            have hlast : found.last = parts.headD [] := by rw [hfound]
            have hne : parts ≠ [] := by
              intro hnil
              rw [hlast, hnil] at hname
              exact absurd hname (by decide)
            refine ⟨parts.tail.reverse, empties.reverse, hcheck, ?_, ?_, ?_, ?_, ?_⟩
            · have hsplit := congrArg List.reverse hparts
              rw [List.reverse_reverse, List.reverse_append] at hsplit
              obtain ⟨last, front, hcons⟩ := List.exists_cons_of_ne_nil hne
              rw [hsplit, hlast, hcons]
              simp
            · intro segment hsegment
              have hmem := List.all_eq_true.mp List.all_takeWhile segment (List.mem_reverse.mp hsegment)
              simpa using hmem
            · rw [hfound]
              exact hwalk
            · rw [hfound]
              exact hdirectory
            · intro hslash
              rw [hfound] at hslash
              have hlength := congrArg List.length hparts
              rw [List.length_append] at hlength
              have hle := of_decide_eq_false hslash
              apply List.reverse_eq_nil_iff.mpr
              apply List.eq_nil_of_length_eq_zero
              omega
          · cases h
          · cases h

theorem EndsAt.place_eq {t : Tree} {cwd : Place} {path : Text} {found : Target}
    {front behind : List Text} (h : EndsAt t cwd path found front behind)
    (hname : isName found.last = true) : found.place = placeOf cwd path := by
  have hlast := isName_iff.mp hname
  rw [placeOf, h.segments, List.foldl_append, List.foldl_cons, foldl_step_of_idle _ h.idle,
    ← walk_eq_ok h.walk, Path.step_name _ hlast.1 hlast.2]
  rfl

/-- Every directory stays one. -/
def KeepsDirectories (t t' : Tree) : Prop :=
  ∀ place, t.get? place = some .directory → t'.get? place = some .directory

theorem KeepsDirectories.refl (t : Tree) : KeepsDirectories t t := fun _ h => h

theorem KeepsDirectories.trans {t t' t'' : Tree} (h : KeepsDirectories t t')
    (h' : KeepsDirectories t' t'') : KeepsDirectories t t'' :=
  fun place hplace => h' place (h place hplace)

/-- What a tree holds at a place, if that is a file. -/
def fileAt (t : Tree) (place : Place) : Option Utf8.Bytes :=
  match t.get? place with
  | some (.file bytes) => some bytes
  | _ => none

theorem fileAt_eq_some_iff {t : Tree} {place : Place} {bytes : Utf8.Bytes} :
    t.fileAt place = some bytes ↔ t.get? place = some (.file bytes) := by
  unfold fileAt
  rcases t.get? place with _ | _ | bytes' <;> simp

theorem find_eq_ok {t : Tree} {cwd : Place} {path : Text} {place : Place}
    (h : t.find cwd path = .ok place) : place = placeOf cwd path := by
  unfold find at h
  cases hcheck : checkPath path with
  | error e =>
      rw [hcheck] at h
      cases h
  | ok _ =>
      rw [hcheck] at h
      exact walk_eq_ok h

/-- A path is read if it leads somewhere and a file stands at its place. -/
theorem read_eq_ok_iff {t : Tree} {cwd : Place} {path : Text} {bytes : Utf8.Bytes} :
    t.read cwd path = .ok bytes ↔
      t.isPresent cwd path = true ∧ t.fileAt (placeOf cwd path) = some bytes := by
  unfold read isPresent
  cases hfind : t.find cwd path with
  | error e => simp [bind, Except.bind]
  | ok place =>
      obtain rfl := find_eq_ok hfind
      rw [fileAt_eq_some_iff]
      cases hnode : t.get? (placeOf cwd path) with
      | none => simp [bind, Except.bind, hnode]
      | some node => cases node <;> simp [bind, Except.bind, hnode]

/-- The path names something in a directory that is there, whether or not the name is taken. -/
structure Names (t : Tree) (cwd : Place) (path : Text) (directory : Place) (name : Text) :
    Prop where
  checked : checkPath path = .ok ()
  walk : ∃ front, Path.segments path = front ++ [name] ∧
    t.walk (start cwd path) front = .ok directory
  isDirectory : t.get? directory = some .directory
  isName : isName name = true
  fits : isTooLong name = false

theorem step_of_keepsDirectories {t t' : Tree} (hkeeps : KeepsDirectories t t')
    {place next : Place} {segment : Text} (hstep : t.step place segment = .ok next)
    (hnext : t.get? next = some .directory) : t'.step place segment = .ok next := by
  obtain ⟨hplace, hstep, hname⟩ := step_eq_ok_iff.mp hstep
  apply step_eq_ok_iff.mpr
  refine ⟨hkeeps place hplace, hstep, ?_⟩
  intro h
  exact ⟨(hname h).1, by rw [hkeeps next hnext]; rfl⟩

theorem walk_of_keepsDirectories {t t' : Tree} (hkeeps : KeepsDirectories t t')
    {place last : Place} {segments : List Text} (hwalk : t.walk place segments = .ok last)
    (hlast : t.get? last = some .directory) : t'.walk place segments = .ok last := by
  induction segments generalizing place with
  | nil => exact hwalk
  | cons segment rest ih =>
      obtain ⟨next, hnext, hrest⟩ := walk_cons_eq_ok.mp hwalk
      have hdirectory : t.get? next = some .directory := by
        cases rest with
        | nil =>
            obtain rfl := Except.ok.inj hrest
            exact hlast
        | cons other rest =>
            obtain ⟨_, hother, -⟩ := walk_cons_eq_ok.mp hrest
            exact (step_eq_ok_iff.mp hother).1
      exact walk_cons_eq_ok.mpr ⟨next, step_of_keepsDirectories hkeeps hnext hdirectory, ih hrest⟩

namespace Names

variable {t : Tree} {cwd : Place} {path : Text} {directory : Place} {name : Text}

theorem mono {t' : Tree} (h : Names t cwd path directory name) (hkeeps : KeepsDirectories t t') :
    Names t' cwd path directory name := by
  obtain ⟨front, hsegments, hwalk⟩ := h.walk
  exact ⟨h.checked, ⟨front, hsegments, walk_of_keepsDirectories hkeeps hwalk h.isDirectory⟩,
    hkeeps directory h.isDirectory, h.isName, h.fits⟩

theorem place_eq (h : Names t cwd path directory name) :
    directory ++ [name] = placeOf cwd path := by
  obtain ⟨front, hsegments, hwalk⟩ := h.walk
  have hname := isName_iff.mp h.isName
  rw [placeOf, hsegments, List.foldl_append, List.foldl_cons, List.foldl_nil,
    ← walk_eq_ok hwalk, Path.step_name _ hname.1 hname.2]

theorem place_ne_nil (h : Names t cwd path directory name) : placeOf cwd path ≠ [] := by
  rw [← h.place_eq]
  exact List.append_ne_nil_of_right_ne_nil _ (List.cons_ne_nil _ _)

theorem target_eq (h : Names t cwd path directory name) :
    t.target cwd path = .ok ⟨directory, name, false⟩ := by
  obtain ⟨front, hsegments, hwalk⟩ := h.walk
  have hname : (name == []) = false := by
    rw [beq_eq_false_iff_ne]
    exact fun hnil => (isName_iff.mp h.isName).1 (.inl hnil)
  have hparts : (Path.segments path).reverse.dropWhile (· == []) = name :: front.reverse := by
    rw [hsegments, List.reverse_append, List.reverse_singleton, List.singleton_append,
      List.dropWhile_cons, hname]
    rfl
  have hlength : (Path.segments path).reverse.length = (name :: front.reverse).length := by
    rw [hsegments]
    simp
  unfold target
  rw [h.checked]
  simp only [bind, Except.bind, hparts, List.tail_cons, List.reverse_reverse, hwalk, h.isDirectory,
    hlength, List.headD_cons, Nat.lt_irrefl, decide_false]

/-- Reading such a path gives what the tree holds at its place. -/
theorem read_eq_ok_iff (h : Names t cwd path directory name) {bytes : Utf8.Bytes} :
    t.read cwd path = .ok bytes ↔ t.fileAt (placeOf cwd path) = some bytes := by
  obtain ⟨front, hsegments, hwalk⟩ := h.walk
  have hname := isName_iff.mp h.isName
  have hfind : t.find cwd path = t.step directory name := by
    unfold find
    rw [h.checked, hsegments]
    show t.walk _ _ = _
    rw [walk_append_singleton, hwalk]
    rfl
  rw [fileAt_eq_some_iff, ← h.place_eq]
  unfold read
  rw [hfind]
  cases hthere : t.get? (directory ++ [name]) with
  | none =>
      have hstep : ∀ next, t.step directory name ≠ .ok next := by
        intro next hnext
        obtain ⟨-, rfl, hisSome⟩ := step_eq_ok_iff.mp hnext
        rw [Path.step_name _ hname.1 hname.2, hthere] at hisSome
        exact absurd (hisSome h.isName).2 (by decide)
      cases hfailed : t.step directory name with
      | error e => simp [bind, Except.bind]
      | ok next => exact absurd hfailed (hstep next)
  | some node =>
      have hstep : t.step directory name = .ok (directory ++ [name]) := by
        apply step_eq_ok_iff.mpr
        refine ⟨h.isDirectory, (Path.step_name _ hname.1 hname.2).symm, fun _ => ⟨h.fits, ?_⟩⟩
        rw [hthere]
        rfl
      rw [hstep]
      cases node <;> simp [bind, Except.bind, hthere]

end Names

end Partials.Tree
