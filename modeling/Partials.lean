import Partials.Main
import Partials.Proofs.Inventory.Accounting
import Partials.Proofs.Inventory.PartialsOnDisk
import Partials.Proofs.Inventory.Retry
import Partials.Proofs.Block.Destination
import Partials.Proofs.Block.Identity
import Partials.Proofs.Block.Extraction
import Partials.Proofs.Scan.Grammar
import Partials.Proofs.Directives.RoundTrip
import Partials.Proofs.Directives.AttributeList
import Partials.Proofs.Inventory.LineEndings
import Partials.Proofs.Directives.Respelling
import Partials.Proofs.Block.Respelling
import Partials.Proofs.Scan.LinePadding
import Partials.Proofs.Block.LinePadding
import Partials.Proofs.Run.DryRun
import Partials.Proofs.Files.AllOrNothing
import Partials.Proofs.Store.RoundTrip
import Partials.Proofs.Block.InlineWrap
import Partials.Proofs.Inventory.DocumentOrder
import Partials.Proofs.Scan.Appending
import Partials.Proofs.Inventory.Refeeding
import Partials.Proofs.Margin.NormalForm
import Partials.Proofs.Margin.Raising
import Partials.Proofs.Directives.Appending
import Partials.Proofs.Block.WrittenDestination
import Partials.Proofs.Block.AttributeNames
import Partials.Proofs.Margin.ChosenWidth
import Partials.Proofs.Block.PathParts
import Partials.Proofs.Path.Absolute
import Partials.Proofs.Title.WordEnds
