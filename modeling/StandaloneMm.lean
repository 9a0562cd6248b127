import StandaloneMm.Proofs.Hosting
import StandaloneMm.Rehearsal.Courier
import StandaloneMm.Rehearsal.Script
import StandaloneMm.Rehearsal.World
import StandaloneMm.Secure.Console
import StandaloneMm.Proofs.Exchange
import StandaloneMm.Proofs.Hold
import StandaloneMm.Proofs.Reply
import StandaloneMm.Proofs.Discovery
import StandaloneMm.Proofs.Link
import StandaloneMm.Proofs.RoundTrip
import StandaloneMm.Proofs.Aggregation
import StandaloneMm.Proofs.Collection
import StandaloneMm.Proofs.Bounds
import StandaloneMm.Proofs.Screening
import StandaloneMm.Proofs.Failure
import StandaloneMm.Proofs.Conduct
import StandaloneMm.Proofs.Course
import StandaloneMm.Proofs.Reentry
import StandaloneMm.Proofs.Lending
import StandaloneMm.Proofs.Startup
import StandaloneMm.Proofs.Filling
import StandaloneMm.Proofs.CarryOver
import StandaloneMm.Proofs.Delegation
import StandaloneMm.Proofs.Bindings
import StandaloneMm.Proofs.Exclusion
import StandaloneMm.Proofs.Succession
import StandaloneMm.Proofs.Provenance
import StandaloneMm.Proofs.Attempt
import StandaloneMm.Proofs.Published
import StandaloneMm.Proofs.Preemption
import StandaloneMm.Proofs.Milestones
import StandaloneMm.Proofs.Threshold
import StandaloneMm.Proofs.Retrieval
import StandaloneMm.Proofs.Console
import StandaloneMm.Proofs.ServiceWords
import StandaloneMm.Proofs.VersionWord
import StandaloneMm.Proofs.Retry
import StandaloneMm.Proofs.Remapping
import StandaloneMm.Proofs.Status
import StandaloneMm.Proofs.Layout
