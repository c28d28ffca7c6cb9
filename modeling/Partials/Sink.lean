import Partials.Files
import Partials.Inventory

/-!
# The directory of partials

The sink that writes each accepted block's template to its destination below a directory.
-/

namespace Partials

/-- Writes templates below `root`. A destination that leads out of it is refused. -/
def Sink.directory {m : Type → Type} [Monad m] (disk : Disk m) (tag : Text) (root : Path) :
    Sink m FileError := fun block =>
  let destination := Path.ofText block.destination
  if destination.isContained then
    (Files.writeText disk tag (root.join destination.text) block.template).run
  else pure (.error (.pathEscape block.destination))

end Partials
