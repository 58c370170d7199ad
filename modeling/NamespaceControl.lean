import NamespaceControl.Main
import NamespaceControl.Proofs.Command.Acceptance
import NamespaceControl.Proofs.Command.Position
import NamespaceControl.Proofs.Command.Rejection
import NamespaceControl.Proofs.Command.Repetition
import NamespaceControl.Proofs.Command.Tokenization
import NamespaceControl.Proofs.Config.Saved
import NamespaceControl.Proofs.Console.Addressing
import NamespaceControl.Proofs.Console.Decoding
import NamespaceControl.Proofs.Console.Noise
import NamespaceControl.Proofs.Console.Splitting
import NamespaceControl.Proofs.Console.TextOutput
import NamespaceControl.Proofs.Console.Truncation
import NamespaceControl.Proofs.ControlPlane
import NamespaceControl.Proofs.Execution.Decision
import NamespaceControl.Proofs.Execution.Faults
import NamespaceControl.Proofs.Execution.Report
import NamespaceControl.Proofs.Execution.Visibility
import NamespaceControl.Proofs.Name.Ancestry
import NamespaceControl.Proofs.Session.Alike
import NamespaceControl.Proofs.Session.Commutation
import NamespaceControl.Proofs.Session.Confinement
import NamespaceControl.Proofs.Session.Selection
import NamespaceControl.Proofs.Store.History
import NamespaceControl.Proofs.Store.Refusal
import NamespaceControl.Proofs.Store.Reseeding
