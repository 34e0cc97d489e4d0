import SeismicHazard.Association.Build
import SeismicHazard.Association.Combine
import SeismicHazard.Composite.Builder
import SeismicHazard.LogicTree.Document
import SeismicHazard.Processing.Pass
import SeismicHazard.Processing.Pool
import SeismicHazard.Settings.Document
import SeismicHazard.Source.Strip
import SeismicHazard.Telemetry.Exposition
import SeismicHazard.Proofs.LogicTree.Coverage
import SeismicHazard.Proofs.Association.Linking
import SeismicHazard.Proofs.Association.Origins
import SeismicHazard.Proofs.Association.ReverseIndex
import SeismicHazard.Proofs.Processing.Installation
import SeismicHazard.Proofs.Processing.Merging
import SeismicHazard.Proofs.Composite.Groups
import SeismicHazard.Proofs.Processing.Redistribution
import SeismicHazard.Proofs.Number.Order
import SeismicHazard.Proofs.Number.Positivity
import SeismicHazard.Proofs.Source.Envelope
import SeismicHazard.Proofs.Source.Soundness
import SeismicHazard.Proofs.Association.Frame
import SeismicHazard.Proofs.Composite.Collections
import SeismicHazard.Proofs.Composite.Grouping
import SeismicHazard.Proofs.Composite.Consistency
import SeismicHazard.Proofs.Composite.Runs
import SeismicHazard.Proofs.LogicTree.Counting
import SeismicHazard.Proofs.Processing.Scheduling
import SeismicHazard.Proofs.Association.Partition
import SeismicHazard.Proofs.Association.Combining
import SeismicHazard.Proofs.Association.Routing
import SeismicHazard.Proofs.Number.Totals
import SeismicHazard.Proofs.LogicTree.Checking
import SeismicHazard.Proofs.Composite.Branches
import SeismicHazard.Proofs.Association.Reducing
import SeismicHazard.Proofs.Association.Viability
import SeismicHazard.Proofs.Association.Renumbering
import SeismicHazard.Proofs.Composite.Layout
import SeismicHazard.Proofs.Association.Folding
import SeismicHazard.Proofs.Association.Independence
import SeismicHazard.Proofs.Association.Telling
import SeismicHazard.Proofs.Association.Resemblance
import SeismicHazard.Proofs.Association.Requests
import SeismicHazard.Proofs.Association.Completeness
import SeismicHazard.Proofs.LogicTree.Combinations
import SeismicHazard.Proofs.Composite.Acceptance
import SeismicHazard.Proofs.Telemetry.Counting
import SeismicHazard.Proofs.Processing.Accounting
import SeismicHazard.Proofs.Settings.RoundTrip
import SeismicHazard.Proofs.LogicTree.Drawing
import SeismicHazard.Proofs.Number.Exact
import SeismicHazard.Proofs.LogicTree.Marginals
import SeismicHazard.Proofs.Association.Shares
import SeismicHazard.Proofs.Association.Delivery
import SeismicHazard.Proofs.Association.Reordering
import SeismicHazard.Proofs.Association.Levels
import SeismicHazard.Proofs.Association.Exceedance
import SeismicHazard.Proofs.Composite.Ownership
import SeismicHazard.Proofs.Association.Relevance
import SeismicHazard.Proofs.LogicTree.Choices
import SeismicHazard.Proofs.LogicTree.Identifiers
import SeismicHazard.Proofs.Association.Tables
import SeismicHazard.Proofs.Association.Identity
import SeismicHazard.Proofs.Association.Bounds
import SeismicHazard.Proofs.Processing.Repetition
import SeismicHazard.Proofs.Association.Tags
import SeismicHazard.Proofs.Source.Refusal
import SeismicHazard.Proofs.Source.Agreement
import SeismicHazard.Proofs.LogicTree.Likelihood
import SeismicHazard.Proofs.Processing.MergeLaws
import SeismicHazard.Proofs.Processing.Interchange
import SeismicHazard.Proofs.Processing.Precedence
import SeismicHazard.Proofs.Settings.Partial
