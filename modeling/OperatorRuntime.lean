import OperatorRuntime.Approval.Proofs.Failures
import OperatorRuntime.Authority.Proofs.Withdrawal
import OperatorRuntime.CanonicalJson
import OperatorRuntime.CodeIndex.Proofs.Search
import OperatorRuntime.ControlPlane.Proofs.Fencing
import OperatorRuntime.ControlPlane.Proofs.Snapshot
import OperatorRuntime.Conversation.Proofs.CrashRuns
import OperatorRuntime.Desired.Proofs.DesiredRuns
import OperatorRuntime.Developer.Proofs.CoordinatorRecovery
import OperatorRuntime.Developer.Proofs.OwnershipRuns
import OperatorRuntime.Devices.Proofs.PairingRuns
import OperatorRuntime.Document.Proofs.Csv
import OperatorRuntime.Document.Proofs.CsvPages
import OperatorRuntime.Document.Proofs.Xml
import OperatorRuntime.Document.Proofs.Zip
import OperatorRuntime.Durable.Proofs.CrashRuns
import OperatorRuntime.Edit.FilePreview
import OperatorRuntime.Edit.Proofs.Positions
import OperatorRuntime.Epistemic.EpistemicState
import OperatorRuntime.Execution.Proofs.StoreRuns
import OperatorRuntime.Journal.Proofs.PhysicalPath
import OperatorRuntime.Lease.Proofs.Exclusion
import OperatorRuntime.Lock.Proofs.CallBounds
import OperatorRuntime.Memory.Proofs.Evidence
import OperatorRuntime.ModelBudget.Proofs.Runs
import OperatorRuntime.Operations.Proofs.Reservations
import OperatorRuntime.Organization.Proofs.Recovery
import OperatorRuntime.Organization.Proofs.Rollout
import OperatorRuntime.Outcome.Proofs.Ledger
import OperatorRuntime.Perception.Proofs.Identity
import OperatorRuntime.Plan.Choice
import OperatorRuntime.Plan.Proofs.Envelope
import OperatorRuntime.Plan.Proofs.Goals
import OperatorRuntime.Plan.Proofs.Lookahead
import OperatorRuntime.Policy.Proofs.Flattening
import OperatorRuntime.Postgres.Proofs.CsvObjects
import OperatorRuntime.RateLimit.Proofs.Quota
import OperatorRuntime.Relay.Proofs.HubRuns
import OperatorRuntime.Relay.Proofs.PumpRuns
import OperatorRuntime.Relay.Proofs.ReadWindow
import OperatorRuntime.Relay.Proofs.ResumeGap
import OperatorRuntime.Scope.Proofs.Containment
import OperatorRuntime.Task.Proofs.TaskRuns
import OperatorRuntime.Team.Proofs.Verification
import OperatorRuntime.World.Proofs.Trace
