import PartPlan.Number.Layout
import PartPlan.Number.Literal
import PartPlan.Text.Blank
import PartPlan.Text.Quoted
import PartPlan.Text.Name
import PartPlan.Digest.Sha256
import PartPlan.Digest.XxHash64
import PartPlan.Json.Basic
import PartPlan.SortedMap
import PartPlan.Json.Printer
import PartPlan.Json.Token
import PartPlan.Json.Reader
import PartPlan.Json.Record
import PartPlan.Validation
import PartPlan.Scalar.Basic
import PartPlan.Params
import PartPlan.Profile
import PartPlan.Selector.Basic
import PartPlan.Selector.Normal
import PartPlan.Selector.Anchors
import PartPlan.Feature.Basic
import PartPlan.Part
import PartPlan.Graph.References
import PartPlan.Graph.Order
import PartPlan.Selection.Resolve
import PartPlan.Main
import PartPlan.Proofs.Graph.Schedule
import PartPlan.Proofs.Graph.Cycle
import PartPlan.Proofs.Graph.Order
import PartPlan.Proofs.Checked
import PartPlan.Proofs.Graph.Scope
import PartPlan.Proofs.Selector.Nesting
import PartPlan.Proofs.Selector.Anchors
import PartPlan.Proofs.Graph.References
import PartPlan.Proofs.Graph.Build
import PartPlan.Proofs.Graph.Normal
import PartPlan.Proofs.Plan.Coherence
import PartPlan.Proofs.Selection.NormalForm
import PartPlan.Proofs.Selection.History
import PartPlan.Proofs.Selection.Names
import PartPlan.Proofs.Selection.Contexts
import PartPlan.Proofs.Selection.Order
import PartPlan.Proofs.Selection.Locality
import PartPlan.Proofs.Plan.Execution
import PartPlan.Proofs.Feature.Valid
import PartPlan.Proofs.Feature.Acceptance
import PartPlan.Proofs.Number.Packing
import PartPlan.Proofs.Number.Nearest
import PartPlan.Proofs.Number.Scientific
import PartPlan.Proofs.Json.Number
import PartPlan.Proofs.Json.Text
import PartPlan.Proofs.Json.Literal
import PartPlan.Proofs.Json.Parse
import PartPlan.Proofs.Json.Record
import PartPlan.Proofs.Json.Origin
import PartPlan.Proofs.Json.RoundTrip
import PartPlan.Proofs.Json.Canonical
import PartPlan.Proofs.Document.Geometry
import PartPlan.Proofs.Document.Selector
import PartPlan.Proofs.Document.Feature
import PartPlan.Proofs.Document.Finite
import PartPlan.Proofs.Document.Records
import PartPlan.Proofs.Document.RoundTrip
import PartPlan.Proofs.Plan.CacheKey
import PartPlan.Proofs.Feature.Evaluated
import PartPlan.Proofs.Graph.Determined
import PartPlan.Proofs.Graph.Restriction
import PartPlan.Proofs.Graph.Related
import PartPlan.Proofs.Plan.Stages
import PartPlan.Proofs.Plan.Cycle
import PartPlan.Proofs.Plan.Fixpoint
import PartPlan.Proofs.Feature.Scalars
import PartPlan.Proofs.Params.Dependence
import PartPlan.Proofs.Plan.Overrides
import PartPlan.Proofs.Plan.Declaration
import PartPlan.Proofs.Plan.Removal
import PartPlan.Proofs.Plan.HashedText
import PartPlan.Proofs.Params.Overridden
import PartPlan.Proofs.Plan.Rewriting
import PartPlan.Proofs.Graph.Renaming
import PartPlan.Proofs.Selector.Renaming
import PartPlan.Proofs.Feature.Renaming
import PartPlan.Proofs.Plan.Renaming
import PartPlan.Proofs.Number.Order
import PartPlan.Proofs.Selection.Ranking
import PartPlan.Proofs.Selection.Query
import PartPlan.Proofs.Scalar.Leaves
import PartPlan.Proofs.Params.Acceptance
import PartPlan.Proofs.Params.Inline
import PartPlan.Proofs.Number.Infinite
import PartPlan.Proofs.Scalar.Finite
import PartPlan.Proofs.Scalar.Refusal
import PartPlan.Proofs.Selector.Canonical
import PartPlan.Proofs.Selection.Fields
import PartPlan.Proofs.Number.Product
import PartPlan.Proofs.Scalar.OwnUnit
import PartPlan.Proofs.Feature.Lengths
import PartPlan.Proofs.Plan.OwnUnits
import PartPlan.Proofs.Graph.EdgeSet
import PartPlan.Proofs.Graph.Walk
import PartPlan.Proofs.Graph.Loop
import PartPlan.Proofs.Document.Plan
import PartPlan.Proofs.CommandLine
