import Partials.Proofs.Files.Temporary
import Partials.Proofs.Files.Writing
import Partials.Proofs.Tree.Changes

/-!
# A write on a tree

A write that succeeds leaves its bytes at the place of its path and nothing at the place of the file
beside it; other files stay as they are, and directories stay.
-/

namespace Partials.Files

open Partials.Tree (placeOf AddsDirectories KeepsDirectories)

section

variable {ε σ α β : Type} {x : ExceptT ε (StateM σ) α} {f : α → ExceptT ε (StateM σ) β}
  {s mid : σ}

theorem run_bind_of_ok {a : α} (h : x.run s = (.ok a, mid)) :
    (x >>= f).run s = (f a).run mid := by
  rw [ExceptT.run_bind]
  change (match x.run s with
    | (outcome, mid) => (match outcome with
      | .ok a => (f a).run
      | .error e => pure (.error e) : StateM σ (Except ε β)) mid) = _
  rw [h]

theorem run_bind_of_error {e : ε} (h : x.run s = (.error e, mid)) :
    (x >>= f).run s = (.error e, mid) := by
  rw [ExceptT.run_bind]
  change (match x.run s with
    | (outcome, mid) => (match outcome with
      | .ok a => (f a).run
      | .error e => pure (.error e) : StateM σ (Except ε β)) mid) = _
  rw [h]
  rfl

theorem run_bind_eq_ok_iff {s' : σ} {b : β} :
    (x >>= f).run s = (.ok b, s') ↔
      ∃ a mid, x.run s = (.ok a, mid) ∧ (f a).run mid = (.ok b, s') := by
  constructor
  · intro h
    cases hx : x.run s with
    | mk outcome mid =>
        cases outcome with
        | ok a => exact ⟨a, mid, rfl, by rw [← h, run_bind_of_ok hx]⟩
        | error e =>
            rw [run_bind_of_error hx] at h
            cases (Prod.mk.inj h).1
  · rintro ⟨a, mid, hx, hf⟩
    rw [run_bind_of_ok hx, hf]

theorem run_bind_eq_ok {s' : σ} {b : β} (h : (x >>= f).run s = (.ok b, s')) :
    ∃ a mid, x.run s = (.ok a, mid) ∧ (f a).run mid = (.ok b, s') :=
  run_bind_eq_ok_iff.mp h

end

theorem run_onPath_eq_ok {σ α : Type} {path : Text} {operation : StateM σ (Except OsError α)}
    {s s' : σ} {a : α} (h : (onPath path operation).run s = (.ok a, s')) :
    operation s = (.ok a, s') := by
  change ((operation s).1.mapError (FileError.io path), (operation s).2) = _ at h
  obtain ⟨houtcome, hstate⟩ := Prod.mk.inj h
  cases hoperation : operation s with
  | mk outcome mid =>
      rw [hoperation] at houtcome hstate
      cases outcome with
      | ok b =>
          obtain rfl := Except.ok.inj houtcome
          rw [← hstate]
      | error e => cases houtcome

theorem update_eq_ok {operation : Tree → Except OsError Tree} {t t' : Tree}
    (h : Tree.update operation t = (.ok (), t')) : operation t = .ok t' := by
  unfold Tree.update at h
  split at h
  · next mid hmid => rw [hmid, (Prod.mk.inj h).2]
  · cases (Prod.mk.inj h).1

theorem run_onPath_update (text : Text) (operation : Tree → Except OsError Tree) (t : Tree) :
    (onPath text (Tree.update operation)).run t =
      match operation t with
      | .ok t' => (.ok (), t')
      | .error e => (.error (.io text e), t) := by
  change ((Tree.update operation t).1.mapError (FileError.io text), (Tree.update operation t).2) = _
  unfold Tree.update
  cases operation t with
  | ok t' => rfl
  | error e => rfl

/-- Whatever becomes of the action, what it adds are directories. -/
def OnlyAddsDirectories {α : Type} (action : StateM Tree α) : Prop :=
  ∀ t, AddsDirectories t (action t).2

theorem onlyAddsDirectories_pure {α : Type} (a : α) :
    OnlyAddsDirectories (pure a : StateM Tree α) := fun t => .refl t

theorem OnlyAddsDirectories.bind {α β : Type} {action : StateM Tree α} {next : α → StateM Tree β}
    (haction : OnlyAddsDirectories action) (hnext : ∀ a, OnlyAddsDirectories (next a)) :
    OnlyAddsDirectories (action >>= next) :=
  fun t => (haction t).trans (hnext _ _)

theorem onlyAddsDirectories_makeDirectory (cwd : Place) (path : Text) :
    OnlyAddsDirectories ((Tree.disk cwd).makeDirectory path) := by
  intro t
  show AddsDirectories t (Tree.update (·.makeDirectory cwd path) t).2
  unfold Tree.update
  split
  · next t' h => exact Tree.addsDirectories_of_makeDirectory h
  · exact .refl t

theorem onlyAddsDirectories_settle (cwd : Place) (directory : Text) (e : OsError) :
    OnlyAddsDirectories (makeDirectories.settle (Tree.disk cwd) directory e) := fun t => .refl t

theorem onlyAddsDirectories_make (cwd : Place) (directory : Text) :
    OnlyAddsDirectories (makeDirectories.make (Tree.disk cwd) directory) := by
  apply (onlyAddsDirectories_makeDirectory cwd directory).bind
  intro outcome
  cases outcome with
  | ok _ => exact onlyAddsDirectories_pure _
  | error e => exact onlyAddsDirectories_settle cwd directory e

theorem onlyAddsDirectories_makeDirectories (cwd : Place) (paths : List Text) :
    OnlyAddsDirectories (makeDirectories (Tree.disk cwd) paths) := by
  induction paths with
  | nil => exact onlyAddsDirectories_pure _
  | cons directory paths ih =>
      apply (onlyAddsDirectories_makeDirectory cwd directory).bind
      intro outcome
      split
      · exact onlyAddsDirectories_pure _
      · apply ih.bind
        intro outcome
        cases outcome with
        | ok _ => exact onlyAddsDirectories_make cwd directory
        | error e => exact onlyAddsDirectories_pure _
      · exact onlyAddsDirectories_settle cwd directory _

theorem onlyAddsDirectories_makeParents (cwd : Place) (path : Path) :
    OnlyAddsDirectories (makeParents (Tree.disk cwd) path).run := by
  unfold makeParents
  split
  · exact (onlyAddsDirectories_makeDirectories cwd _).bind fun _ => onlyAddsDirectories_pure _
  · exact onlyAddsDirectories_pure _

theorem addsDirectories_of_makeParents {cwd : Place} {path : Path} {t t' : Tree}
    {outcome : Except FileError Unit}
    (h : (makeParents (Tree.disk cwd) path).run t = (outcome, t')) : AddsDirectories t t' := by
  have hadds := onlyAddsDirectories_makeParents cwd path t
  rwa [h] at hadds

/-- What a write that succeeds changes: its bytes stand at the place of its path, nothing stands at
the place of the file that it wrote first, and everywhere else are the files of before. -/
theorem writeAtomic_changes {cwd : Place} {tag : Text} {path : Path} {bytes : Utf8.Bytes}
    {t t' : Tree} (h : (writeAtomic (Tree.disk cwd) tag path bytes).run t = (.ok (), t')) :
    KeepsDirectories t t' ∧ (∃ directory name, Tree.Names t' cwd path.text directory name) ∧
    ∀ place, t'.fileAt place =
      if place = placeOf cwd path.text then some bytes
      else if place = placeOf cwd (temporaryPath tag path.text) then none
      else t.fileAt place := by
  rw [writeAtomic_eq] at h
  obtain ⟨⟨⟩, parents, hparents, h⟩ := run_bind_eq_ok h
  obtain ⟨⟨⟩, created, hcreate, hrename⟩ := run_bind_eq_ok h
  have hadds := addsDirectories_of_makeParents hparents
  obtain ⟨hkeepsCreated, hcreated⟩ :=
    Tree.create_changes (update_eq_ok (run_onPath_eq_ok hcreate))
  obtain ⟨hkeepsMoved, ⟨directory, name, hnames⟩, moved, hmoved, hrenamed⟩ :=
    Tree.rename_changes (update_eq_ok (run_onPath_eq_ok hrename))
  rw [hcreated, if_pos rfl] at hmoved
  obtain rfl := Option.some.inj hmoved
  refine ⟨hadds.keepsDirectories.trans (hkeepsCreated.trans hkeepsMoved),
    ⟨directory, name, hnames.mono hkeepsMoved⟩, ?_⟩
  intro place
  rw [hrenamed, hcreated, hadds.fileAt_eq]
  by_cases hscratch : place = placeOf cwd (temporaryPath tag path.text)
  · simp only [hscratch, if_true]
  · simp only [hscratch, if_false]

/-- What a write that succeeds has written is what is read next. -/
theorem readText_of_writeAtomic {cwd : Place} {tag : Text} {path : Path} {bytes : Utf8.Bytes}
    {t t' : Tree} {text : Text}
    (h : (writeAtomic (Tree.disk cwd) tag path bytes).run t = (.ok (), t'))
    (hdecoded : Utf8.decode? bytes = some text) :
    (readText (Tree.disk cwd) path).run t' = (.ok text, t') := by
  obtain ⟨-, ⟨directory, name, hnames⟩, hfiles⟩ := writeAtomic_changes h
  have hbytes : t'.fileAt (placeOf cwd path.text) = some bytes := by
    rw [hfiles, if_pos rfl]
  change (((t'.read cwd path.text).bind _).mapError _, t') = _
  rw [hnames.read_eq_ok_iff.mpr hbytes]
  simp only [Except.bind, hdecoded]
  rfl

/-- Where the tag is a part of a name, the file that is written first is one beside the target. -/
theorem writeAtomic_eq_ok {cwd : Place} {tag : Text} {path : Path} {bytes : Utf8.Bytes}
    {t t' : Tree} (htag : '/' ∉ tag)
    (h : (writeAtomic (Tree.disk cwd) tag path bytes).run t = (.ok (), t')) :
    ∃ directory name,
      Tree.Names t' cwd path.text directory name ∧ KeepsDirectories t t' ∧
      ∀ place, t'.fileAt place =
        if place = directory ++ [name] then some bytes
        else if place = directory ++ [scratchName tag name] then none
        else t.fileAt place := by
  obtain ⟨hkeeps, ⟨directory, name, hnames⟩, hfiles⟩ := writeAtomic_changes h
  have hbeside : placeOf cwd (temporaryPath tag path.text) =
      directory ++ [scratchName tag name] := by
    obtain ⟨front, hsegments, hwalk⟩ := hnames.walk
    rw [placeOf_temporaryPath hsegments hnames.isName htag, ← Tree.walk_eq_ok hwalk]
  refine ⟨directory, name, hnames, hkeeps, ?_⟩
  intro place
  rw [hfiles, hbeside, hnames.place_eq]

/-- A write that succeeds is one to a path that ends in a name. -/
theorem names_of_writeAtomic_eq_ok {cwd : Place} {tag : Text} {path : Path} {bytes : Utf8.Bytes}
    {t t' : Tree} (h : (writeAtomic (Tree.disk cwd) tag path bytes).run t = (.ok (), t')) :
    ∃ directory name, Tree.Names t' cwd path.text directory name :=
  (writeAtomic_changes h).2.1

end Partials.Files
