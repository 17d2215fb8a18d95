import NodeFencing.Controller
import NodeFencing.Definition
import NodeFencing.Main
import NodeFencing.Proofs.Alone.Repair
import NodeFencing.Proofs.Apart.Independence
import NodeFencing.Proofs.Api.Execution
import NodeFencing.Proofs.Command.Assembly
import NodeFencing.Proofs.Condition.Streak
import NodeFencing.Proofs.Error.Views
import NodeFencing.Proofs.Json.Manifest
import NodeFencing.Proofs.Json.Resources
import NodeFencing.Proofs.Pass.BestEffort
import NodeFencing.Proofs.Pass.Forward
import NodeFencing.Proofs.Pass.Path
import NodeFencing.Proofs.Reconcile.Accounts
import NodeFencing.Proofs.Reconcile.Retry
import NodeFencing.Proofs.Revision.Finalizers
import NodeFencing.Proofs.Revision.Taints
import NodeFencing.Proofs.Session.Framing
import NodeFencing.Proofs.Settings.Precedence
import NodeFencing.Proofs.Site.Conditions
import NodeFencing.Proofs.Site.Consistency
import NodeFencing.Proofs.Site.Sharing
