import Partials.Sink

/-!
# The steps of a write

A write makes the directories above its target, creates a file beside it and moves that file onto
it (`writeAtomic_eq`). It fails only where the disk fails, on whatever disk it is done
(`failsOnlyOnDisk_writeAtomic`).
-/

namespace Partials.Files

variable {m : Type → Type} [Monad m]

/-- Makes the directories above the path, if it names any. -/
def makeParents (disk : Disk m) (path : Path) : ExceptT FileError m Unit :=
  match Path.Native.parent? path.text with
  | some (c :: cs) => onPath (c :: cs) (makeDirectories disk (Path.Native.ancestors (c :: cs)))
  | _ => pure ()

/-- Whatever the action fails with is a failure of the disk at some path. -/
def FailsOnlyOnDisk {α : Type} (action : ExceptT FileError m α) : Prop :=
  ∃ inner : ExceptT (Text × OsError) m α,
    action = ExceptT.adapt (fun failure => FileError.io failure.1 failure.2) inner

variable [LawfulMonad m]

theorem writeAtomic_eq (disk : Disk m) (tag : Text) (path : Path) (bytes : Utf8.Bytes) :
    writeAtomic disk tag path bytes = (do
      makeParents disk path
      onPath (temporaryPath tag path.text) (disk.create (temporaryPath tag path.text) bytes)
      onPath path.text (disk.rename (temporaryPath tag path.text) path.text)) := by
  unfold writeAtomic makeParents
  rcases Path.Native.parent? path.text with _ | _ | ⟨c, cs⟩
  · simp
  · simp
  · rfl

private theorem adapt_bind {ε ε' α β : Type} (f : ε → ε') (x : ExceptT ε m α)
    (g : α → ExceptT ε m β) :
    ExceptT.adapt f (x >>= g) = ExceptT.adapt f x >>= fun a => ExceptT.adapt f (g a) := by
  apply ExceptT.ext
  rw [ExceptT.run_adapt, ExceptT.run_bind, ExceptT.run_bind, ExceptT.run_adapt, map_bind,
    bind_map_left]
  congr 1
  funext outcome
  cases outcome with
  | ok a => exact (ExceptT.run_adapt f (g a)).symm
  | error e =>
      show Except.mapError f <$> pure (Except.error e) = pure (Except.error (f e))
      rw [map_pure]
      rfl

theorem failsOnlyOnDisk_pure {α : Type} (a : α) :
    FailsOnlyOnDisk (pure a : ExceptT FileError m α) := by
  refine ⟨pure a, ?_⟩
  apply ExceptT.ext
  rw [ExceptT.run_adapt, ExceptT.run_pure, ExceptT.run_pure, map_pure]
  rfl

theorem FailsOnlyOnDisk.bind {α β : Type} {action : ExceptT FileError m α}
    {next : α → ExceptT FileError m β} (haction : FailsOnlyOnDisk action)
    (hnext : ∀ a, FailsOnlyOnDisk (next a)) : FailsOnlyOnDisk (action >>= next) := by
  obtain ⟨inner, rfl⟩ := haction
  obtain ⟨innerNext, hinner⟩ := Classical.axiomOfChoice hnext
  refine ⟨inner >>= innerNext, ?_⟩
  rw [adapt_bind]
  congr 1
  funext a
  exact hinner a

theorem failsOnlyOnDisk_onPath {α : Type} (path : Text) (operation : m (Except OsError α)) :
    FailsOnlyOnDisk (onPath path operation) := by
  refine ⟨ExceptT.mk (Except.mapError (fun cause => (path, cause)) <$> operation), ?_⟩
  apply ExceptT.ext
  rw [ExceptT.run_adapt, ExceptT.run_mk, onPath, ExceptT.run_mk, Functor.map_map, map_eq_pure_bind]
  congr 1
  funext outcome
  cases outcome <;> rfl

theorem failsOnlyOnDisk_makeParents (disk : Disk m) (path : Path) :
    FailsOnlyOnDisk (makeParents disk path) := by
  unfold makeParents
  split
  · exact failsOnlyOnDisk_onPath _ _
  · exact failsOnlyOnDisk_pure ()

theorem failsOnlyOnDisk_writeAtomic (disk : Disk m) (tag : Text) (path : Path)
    (bytes : Utf8.Bytes) : FailsOnlyOnDisk (writeAtomic disk tag path bytes) := by
  rw [writeAtomic_eq]
  apply FailsOnlyOnDisk.bind (failsOnlyOnDisk_makeParents disk path)
  intro _
  apply FailsOnlyOnDisk.bind (failsOnlyOnDisk_onPath _ _)
  intro _
  exact failsOnlyOnDisk_onPath _ _

/-- On a disk with a state, no outcome of such an action is an escape. -/
theorem FailsOnlyOnDisk.run_ne_pathEscape {σ α : Type} {action : ExceptT FileError (StateM σ) α}
    (h : FailsOnlyOnDisk action) (s : σ) (path : Text) :
    (action.run s).1 ≠ .error (.pathEscape path) := by
  obtain ⟨inner, rfl⟩ := h
  rw [ExceptT.run_adapt]
  change Except.mapError _ (inner.run s).1 ≠ _
  cases (inner.run s).1 with
  | ok a => exact fun hescape => by cases hescape
  | error failure => exact fun hescape => by cases Except.error.inj hescape

end Partials.Files
