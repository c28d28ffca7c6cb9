import Partials.Proofs.Tree.Places

/-!
# What operations change

Each operation that succeeds, by the places it is about: a directory where nothing was, a file at
the place of its path, or a file moved from one place to another.
-/

namespace Partials.Tree

theorem get?_erase (t : Tree) {place : Place} (hplace : place ≠ []) (other : Place) :
    (t.erase place).get? other = if other = place then none else t.get? other := by
  unfold get? erase
  by_cases hroot : other = []
  · subst hroot
    rw [if_pos rfl, if_neg (Ne.symm hplace), if_pos rfl]
  · rw [if_neg hroot, if_neg hroot]
    induction t.entries with
    | nil => simp
    | cons entry entries ih =>
        obtain ⟨first, node⟩ := entry
        by_cases hfirst : first = place
        · subst hfirst
          by_cases hother : other = first
          · simpa [hother] using ih
          · simpa [List.lookup_cons, beq_eq_false_iff_ne.2 hother, hother] using ih
        · by_cases hother : other = first
          · subst hother
            simp [hfirst]
          · simpa [List.lookup_cons, beq_eq_false_iff_ne.2 hother, hfirst] using ih

/-- All nodes stay, and what is new are directories. -/
structure AddsDirectories (t t' : Tree) : Prop where
  kept : ∀ place node, t.get? place = some node → t'.get? place = some node
  added : ∀ place, t.get? place = none → t'.get? place = none ∨ t'.get? place = some .directory

namespace AddsDirectories

theorem refl (t : Tree) : AddsDirectories t t := ⟨fun _ _ h => h, fun _ h => .inl h⟩

theorem trans {t t' t'' : Tree} (h : AddsDirectories t t') (h' : AddsDirectories t' t'') :
    AddsDirectories t t'' := by
  refine ⟨fun place node hnode => h'.kept place node (h.kept place node hnode), ?_⟩
  intro place hnone
  rcases h.added place hnone with hstill | hdirectory
  · exact h'.added place hstill
  · exact .inr (h'.kept place _ hdirectory)

theorem keepsDirectories {t t' : Tree} (h : AddsDirectories t t') : KeepsDirectories t t' :=
  fun place hplace => h.kept place _ hplace

theorem fileAt_eq {t t' : Tree} (h : AddsDirectories t t') (place : Place) :
    t'.fileAt place = t.fileAt place := by
  unfold fileAt
  cases hnode : t.get? place with
  | none =>
      rcases h.added place hnode with hnone | hdirectory
      · rw [hnone]
      · rw [hdirectory]
  | some node => rw [h.kept place node hnode]

theorem put {t : Tree} {place : Place} (hplace : place ≠ []) (hfree : t.get? place = none) :
    AddsDirectories t (t.put place .directory) := by
  constructor
  · intro other node hnode
    have hother : other ≠ place := by
      rintro rfl
      rw [hfree] at hnode
      cases hnode
    rw [get?_put t hplace, if_neg hother, hnode]
  · intro other hnone
    rw [get?_put t hplace]
    split
    · exact .inr rfl
    · exact .inl hnone

end AddsDirectories

theorem Target.place_ne_nil (found : Target) : found.place ≠ [] :=
  List.append_ne_nil_of_right_ne_nil _ (List.cons_ne_nil _ _)

theorem addsDirectories_of_makeDirectory {t t' : Tree} {cwd : Place} {path : Text}
    (h : t.makeDirectory cwd path = .ok t') : AddsDirectories t t' := by
  unfold makeDirectory at h
  cases hfound : t.target cwd path with
  | error e =>
      rw [hfound] at h
      cases h
  | ok found =>
      simp only [hfound, bind, Except.bind] at h
      split at h
      · cases h
      · split at h
        · cases h
        · split at h
          · cases h
          · next hfree =>
            obtain rfl := Except.ok.inj h
            exact .put found.place_ne_nil (by simpa using hfree)

theorem fileAt_put_file (t : Tree) {place : Place} (hplace : place ≠ []) (bytes : Utf8.Bytes)
    (other : Place) :
    (t.put place (.file bytes)).fileAt other =
      if other = place then some bytes else t.fileAt other := by
  unfold fileAt
  rw [get?_put t hplace]
  by_cases hother : other = place
  · rw [if_pos hother, if_pos hother]
  · rw [if_neg hother, if_neg hother]

theorem fileAt_erase (t : Tree) {place : Place} (hplace : place ≠ []) (other : Place) :
    (t.erase place).fileAt other = if other = place then none else t.fileAt other := by
  unfold fileAt
  rw [get?_erase t hplace]
  by_cases hother : other = place
  · rw [if_pos hother, if_pos hother]
  · rw [if_neg hother, if_neg hother]

theorem keepsDirectories_put_file {t : Tree} {place : Place} (hplace : place ≠ [])
    (hnode : t.get? place ≠ some .directory) (bytes : Utf8.Bytes) :
    KeepsDirectories t (t.put place (.file bytes)) := by
  intro other hother
  have hne : other ≠ place := by
    rintro rfl
    exact hnode hother
  rw [get?_put t hplace, if_neg hne, hother]

theorem keepsDirectories_erase {t : Tree} {place : Place} (hplace : place ≠ [])
    (hnode : t.get? place ≠ some .directory) : KeepsDirectories t (t.erase place) := by
  intro other hother
  have hne : other ≠ place := by
    rintro rfl
    exact hnode hother
  rw [get?_erase t hplace, if_neg hne, hother]

/-- A file is made under a name, in a directory that is there. -/
theorem create_eq_ok {t t' : Tree} {cwd : Place} {path : Text} {bytes : Utf8.Bytes}
    (h : t.create cwd path bytes = .ok t') :
    ∃ directory name,
      Names t cwd path directory name ∧ t.get? (placeOf cwd path) ≠ some .directory ∧
      t' = t.put (placeOf cwd path) (.file bytes) := by
  unfold create at h
  cases hfound : t.target cwd path with
  | error e =>
      rw [hfound] at h
      cases h
  | ok found =>
      simp only [hfound, bind, Except.bind] at h
      split at h
      · cases h
      · next hlast =>
        simp only [Bool.or_eq_true, Bool.not_eq_true', not_or, Bool.not_eq_false,
          Bool.not_eq_true] at hlast
        obtain ⟨front, behind, hends⟩ := target_eq_ok hfound hlast.1
        have hsegments := hends.segments
        rw [hends.behind_nil hlast.2] at hsegments
        rw [← hends.place_eq hlast.1]
        split at h
        · cases h
        · next hfits =>
          split at h
          · cases h
          · next hnode =>
            exact ⟨found.directory, found.last,
              ⟨hends.checked, ⟨front, hsegments, hends.walk⟩, hends.isDirectory, hlast.1,
                by simpa using hfits⟩,
              hnode, (Except.ok.inj h).symm⟩

theorem create_changes {t t' : Tree} {cwd : Place} {path : Text} {bytes : Utf8.Bytes}
    (h : t.create cwd path bytes = .ok t') :
    KeepsDirectories t t' ∧
    ∀ place, t'.fileAt place =
      if place = placeOf cwd path then some bytes else t.fileAt place := by
  obtain ⟨directory, name, hnames, hfree, rfl⟩ := create_eq_ok h
  exact ⟨keepsDirectories_put_file hnames.place_ne_nil hfree bytes,
    fileAt_put_file t hnames.place_ne_nil bytes⟩

/-- A move takes the file from the place of one path to that of another, which names something in a
directory that is there. -/
theorem rename_eq_ok {t t' : Tree} {cwd : Place} {old new : Text}
    (h : t.rename cwd old new = .ok t') :
    ∃ bytes directory name,
      placeOf cwd old ≠ [] ∧ t.fileAt (placeOf cwd old) = some bytes ∧
      Names t cwd new directory name ∧ t.get? (placeOf cwd new) ≠ some .directory ∧
      t' = (t.erase (placeOf cwd old)).put (placeOf cwd new) (.file bytes) := by
  unfold rename at h
  cases hsource : t.target cwd old with
  | error e =>
      rw [hsource] at h
      cases h
  | ok source =>
      cases htarget : t.target cwd new with
      | error e =>
          rw [hsource, htarget] at h
          cases h
      | ok target =>
          simp only [hsource, htarget, bind, Except.bind] at h
          split at h
          · cases h
          · next hnames =>
            simp only [Bool.or_eq_true, Bool.not_eq_true', not_or, Bool.not_eq_false] at hnames
            obtain ⟨_, _, hold⟩ := target_eq_ok hsource hnames.1
            obtain ⟨front, behind, hnew⟩ := target_eq_ok htarget hnames.2
            split at h
            · cases h
            · cases h
            · next bytes hbytes =>
              split at h
              · cases h
              · next hfits =>
                split at h
                · cases h
                · next hslash =>
                  simp only [Bool.or_eq_true, not_or, Bool.not_eq_true] at hslash
                  split at h
                  · cases h
                  · next hnode =>
                    have hsegments := hnew.segments
                    rw [hnew.behind_nil hslash.2] at hsegments
                    rw [← hold.place_eq hnames.1, ← hnew.place_eq hnames.2]
                    exact ⟨bytes, target.directory, target.last, source.place_ne_nil,
                      fileAt_eq_some_iff.mpr hbytes,
                      ⟨hnew.checked, ⟨front, hsegments, hnew.walk⟩, hnew.isDirectory, hnames.2,
                        by simpa using hfits⟩,
                      hnode, (Except.ok.inj h).symm⟩

/-- A file is moved onto any name in a directory at which no directory stands. -/
theorem rename_of_names {t : Tree} {cwd directory directory' : Place} {old new name name' : Text}
    {bytes : Utf8.Bytes}
    (hold : Names t cwd old directory name) (hnew : Names t cwd new directory' name')
    (hbytes : t.fileAt (placeOf cwd old) = some bytes)
    (hfree : t.get? (placeOf cwd new) ≠ some .directory) :
    t.rename cwd old new =
      .ok ((t.erase (placeOf cwd old)).put (placeOf cwd new) (.file bytes)) := by
  have hfile := fileAt_eq_some_iff.mp hbytes
  rw [← hold.place_eq] at hfile ⊢
  rw [← hnew.place_eq] at hfree ⊢
  unfold rename
  simp only [hold.target_eq, hnew.target_eq, bind, Except.bind, hold.isName, hnew.isName,
    Target.place, hfile, hnew.fits]
  simp

theorem rename_changes {t t' : Tree} {cwd : Place} {old new : Text}
    (h : t.rename cwd old new = .ok t') :
    KeepsDirectories t t' ∧
    (∃ directory name, Names t cwd new directory name) ∧
    ∃ bytes, t.fileAt (placeOf cwd old) = some bytes ∧
      ∀ place, t'.fileAt place =
        if place = placeOf cwd new then some bytes
        else if place = placeOf cwd old then none
        else t.fileAt place := by
  obtain ⟨bytes, directory, name, hold, hbytes, hnames, hfree, rfl⟩ := rename_eq_ok h
  have hnew : placeOf cwd new ≠ [] := hnames.place_ne_nil
  have hfile : t.get? (placeOf cwd old) ≠ some .directory := by
    rw [fileAt_eq_some_iff.mp hbytes]
    exact fun hnode => by cases hnode
  have hstill : (t.erase (placeOf cwd old)).get? (placeOf cwd new) ≠ some .directory := by
    rw [get?_erase t hold]
    split
    · exact fun hnode => by cases hnode
    · exact hfree
  refine ⟨(keepsDirectories_erase hold hfile).trans (keepsDirectories_put_file hnew hstill bytes),
    ⟨directory, name, hnames⟩, bytes, hbytes, ?_⟩
  intro place
  rw [fileAt_put_file _ hnew, fileAt_erase _ hold]

/-- Outside of the places, a file of the second tree was the same file in the first. -/
def NewFilesAt (places : List Place) (t t' : Tree) : Prop :=
  ∀ place bytes, place ∉ places → t'.fileAt place = some bytes → t.fileAt place = some bytes

namespace NewFilesAt

theorem refl (t : Tree) : NewFilesAt [] t t := fun _ _ _ h => h

theorem trans {places places' : List Place} {t t' t'' : Tree} (h : NewFilesAt places t t')
    (h' : NewFilesAt places' t' t'') : NewFilesAt (places ++ places') t t'' := by
  intro place bytes hplace hfile
  rw [List.mem_append, not_or] at hplace
  exact h place bytes hplace.1 (h' place bytes hplace.2 hfile)

/-- A file that is read later is read before, if its path leads somewhere before and its place is
none of the places. -/
theorem read_eq_ok {places : List Place} {t t' : Tree} (h : NewFilesAt places t t') {cwd : Place}
    {path : Text} (hpresent : t.isPresent cwd path = true) (hplace : placeOf cwd path ∉ places)
    {bytes : Utf8.Bytes} (hread : t'.read cwd path = .ok bytes) :
    t.read cwd path = .ok bytes :=
  read_eq_ok_iff.mpr ⟨hpresent, h _ _ hplace (read_eq_ok_iff.mp hread).2⟩

end NewFilesAt

end Partials.Tree
