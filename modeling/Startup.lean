import Startup.Effect.Execution
import Startup.Lifecycle.Run
import Startup.Proofs.Binding.Agreement
import Startup.Proofs.Binding.Entries
import Startup.Proofs.Binding.Ignored
import Startup.Proofs.Binding.Integer
import Startup.Proofs.Binding.Locality
import Startup.Proofs.Binding.MainSettings
import Startup.Proofs.Binding.Record
import Startup.Proofs.Binding.Texts
import Startup.Proofs.Context.Enriching
import Startup.Proofs.Context.LastWord
import Startup.Proofs.Context.Quiet
import Startup.Proofs.Context.Retrying
import Startup.Proofs.Context.Snapshot
import Startup.Proofs.Context.Terminal
import Startup.Proofs.Effect.Assigning
import Startup.Proofs.Json.Reading
import Startup.Proofs.Lifecycle.Advancing
import Startup.Proofs.Lifecycle.Attempts
import Startup.Proofs.Lifecycle.Configured
import Startup.Proofs.Lifecycle.Deliveries
import Startup.Proofs.Lifecycle.Ending
import Startup.Proofs.Lifecycle.Failing
import Startup.Proofs.Lifecycle.FirstError
import Startup.Proofs.Lifecycle.Hearing
import Startup.Proofs.Lifecycle.Loading
import Startup.Proofs.Lifecycle.Phases
import Startup.Proofs.Lifecycle.Plan
import Startup.Proofs.Lifecycle.Reporting
import Startup.Proofs.Lifecycle.Successful
import Startup.Proofs.Lifecycle.Undisturbed
import Startup.Proofs.Lifecycle.Wording
import Startup.Proofs.Multicaster.Sequence
import Startup.Proofs.Property.Arguments
import Startup.Proofs.Property.Clash
import Startup.Proofs.Property.Document
import Startup.Proofs.Property.Keys
import Startup.Proofs.Property.Layers
import Startup.Proofs.Property.Leaves
import Startup.Proofs.Property.NormalForm
import Startup.Proofs.Property.Options
import Startup.Proofs.Property.RoundTrip
import Startup.Proofs.Property.Tree
import Startup.Scenario.Capture
import Startup.Scenario.Reader
import Startup.Scenario.Report
import Startup.Proofs.Context.Building
import Startup.Proofs.Property.Profiles
import Startup.Proofs.Property.Decoding
import Startup.Proofs.Property.Insertion
