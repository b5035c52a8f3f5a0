import ProseLint.Main
import ProseLint.Proofs.Command
import ProseLint.Proofs.Comment
import ProseLint.Proofs.Concat
import ProseLint.Proofs.Contribution
import ProseLint.Proofs.Coverage
import ProseLint.Proofs.Diagnostic
import ProseLint.Proofs.EmbeddedName
import ProseLint.Proofs.Faults
import ProseLint.Proofs.Fence
import ProseLint.Proofs.Heading
import ProseLint.Proofs.Layout
import ProseLint.Proofs.MarkerText
import ProseLint.Proofs.Overrides
import ProseLint.Proofs.Parameters
import ProseLint.Proofs.Pieces
import ProseLint.Proofs.SentenceOrder
import ProseLint.Proofs.Settings
import ProseLint.Proofs.Skeleton
import ProseLint.Proofs.Suppression
import ProseLint.Proofs.Walk
