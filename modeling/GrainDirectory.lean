import GrainDirectory.Cluster.Command
import GrainDirectory.Endpoint.Parser
import GrainDirectory.Text.Bytes.Lemmas
import GrainDirectory.Proofs.BatchRemoval
import GrainDirectory.Proofs.Forwarding
import GrainDirectory.Proofs.OneDirectory
import GrainDirectory.Proofs.ReadYourWrites
import GrainDirectory.Proofs.FrameTransparency
import GrainDirectory.Proofs.Coherence
import GrainDirectory.Proofs.FastPath
import GrainDirectory.Proofs.Wire.Canonical
import GrainDirectory.Proofs.Ring.Order
import GrainDirectory.Proofs.Ring.Placement
import GrainDirectory.Proofs.Ring.Disruption
import GrainDirectory.Proofs.Membership.EventQueue
import GrainDirectory.Proofs.Membership.Agreement
import GrainDirectory.Proofs.Membership.Restarts
import GrainDirectory.Proofs.Newcomers
import GrainDirectory.Proofs.Departures
import GrainDirectory.Proofs.Membership.ReportOrder
import GrainDirectory.Proofs.Provenance
import GrainDirectory.Proofs.Races
import GrainDirectory.Proofs.Forgetting
import GrainDirectory.Proofs.Adjustment
import GrainDirectory.Proofs.BatchDelivery
import GrainDirectory.Proofs.PartitionHistory
import GrainDirectory.Proofs.Takeover
import GrainDirectory.Proofs.VersionTags
import GrainDirectory.Proofs.RegistrationAge
import GrainDirectory.Proofs.Draining
import GrainDirectory.Proofs.Ring.Shares
import GrainDirectory.Proofs.Ring.Canonical
import GrainDirectory.Proofs.Ring.Neighbours
import GrainDirectory.Proofs.Membership.Subscriptions
import GrainDirectory.Proofs.LocalAnswers
import GrainDirectory.Proofs.CallAccounts
