import HolGuard.Approval.OneUse
import HolGuard.Policy.RoundTrip
import HolGuard.Publisher.Generations
import HolGuard.Wire.ContextAgreement
import HolGuard.Wire.ContextToken
import HolGuard.ControlAuthority.ManagedAllows
import HolGuard.Continuation.EndsOnce
import HolGuard.PolicyDocument.Diff
import HolGuard.Bundle.Materialized
import HolGuard.ApprovalGate.LiveProof
import HolGuard.Options.FlagReadings
import HolGuard.Controls.Disabling
import HolGuard.Matchers.Evaluation
import HolGuard.Provider.BatchDenies
import HolGuard.Policy.LegacyMigration
import HolGuard.Wire.ConfiguredValues
import HolGuard.WorkspaceReview.ReplayIndex
import HolGuard.Network.DecisionLifetime
import HolGuard.Archive.Containment
import HolGuard.Pretool.PureExpression
