/-
Compilation of a part into a build plan: its features in normal form, their
graph, their order, and their hashes. The plan is a function of the part,
the overrides and the options.
-/
import PartPlan.Graph.Order
import PartPlan.Graph.References
import PartPlan.Part
import PartPlan.Plan.Fingerprint

namespace PartPlan

/-- How a part is built. -/
structure BuildPlan where
  partId : String
  units : UnitSystem
  /-- The ids of the features in build order. -/
  order : List String
  graph : Graph
  /-- The features in normal form, in build order. -/
  features : List Feature
  /-- The hash of each feature. -/
  hashes : SortedMap String
  diagnostics : List Diagnostic

namespace BuildPlan

/-- The feature with an id. -/
def feature? (p : BuildPlan) (id : String) : Option Feature := p.features.find? (·.id == id)

/-- The place of a feature in the build order. -/
def position? (p : BuildPlan) (id : String) : Option Nat := p.order.idxOf? id

/-- The key under which a build of the plan on a backend may be reused. -/
def cacheKey? (p : BuildPlan) (backend : String) (overrides : Overrides) : Option String :=
  PartPlan.cacheKey? p.partId p.order p.hashes backend overrides

/-- A plan is written as a record, without diagnostics if there are none. -/
def toJson (p : BuildPlan) : Json :=
  Json.record [("partId", some (.str p.partId)), ("units", some p.units.toJson),
    ("featureOrder", some (.arr (p.order.map .str))), ("graph", some p.graph.toJson),
    ("features", some (.arr (p.features.map Feature.toJson))),
    ("featureHashes", some (Json.ofMap .str p.hashes)),
    ("diagnostics", Json.nonEmpty (p.diagnostics.map Diagnostic.toJson))]

def ofJson? (v : Json) : Option BuildPlan := do
  match ← v.fields? ["partId", "units", "featureOrder", "graph", "features", "featureHashes",
    "diagnostics"] with
  | [partId, units, order, graph, features, hashes, diagnostics] =>
    some {
      partId := ← Json.required Json.text? partId
      units := ← Json.required UnitSystem.ofJson? units
      order := ← Json.required (Json.list? Json.text?) order
      graph := ← Json.required Graph.ofJson? graph
      features := ← Json.required (Json.list? Feature.ofJson?) features
      hashes := ← Json.required (Json.map? Json.text?) hashes
      diagnostics := ← Json.defaulted [] (Json.list? Diagnostic.ofJson?) diagnostics }
  | _ => none

end BuildPlan

/-- Why a part has no build plan. -/
inductive CompileError where
  | validation (cause : ValidationError)
  | graph (cause : GraphError)
  deriving Repr

namespace CompileError

def code : CompileError → String
  | validation cause => cause.code
  | graph cause => cause.code

def message : CompileError → String
  | validation cause => cause.message
  | graph cause => cause.message

/-- An error as callers see it. -/
def report (e : CompileError) : ErrorReport := ⟨e.code, e.message⟩

end CompileError

/-- The features with the given ids, in the order of the ids. -/
def Feature.inOrder (order : List String) (features : List Feature) : List Feature :=
  order.filterMap fun id => features.find? (·.id == id)

/-- The hash of each feature under its id. -/
def Feature.hashTable (features : List Feature) : SortedMap String :=
  .ofList (features.map fun f => (f.id, f.hash))

/-- The plan of a part in normal form. -/
def NormalPart.plan (p : NormalPart) : Except GraphError BuildPlan := do
  let graph ← Graph.build p.features
  let order ← graph.order
  let features := Feature.inOrder order p.features
  pure {
    partId := p.partId
    units := p.units
    order
    graph
    features
    hashes := Feature.hashTable features
    diagnostics := p.diagnostics }

/-- The build plan of a part. -/
def Part.compile (p : Part) (overrides : Overrides) (options : Options) :
    Except CompileError BuildPlan := do
  let normal ← (p.normal overrides options).mapError .validation
  normal.plan.mapError .graph

end PartPlan
