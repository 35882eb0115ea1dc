/-
Dependency graphs: the ids of features in the order of declaration, and an
edge from each feature to each one that has to follow it.
-/
import PartPlan.Json.Record

namespace PartPlan

/-- One feature has to be built before another. -/
structure Edge where
  dependency : String
  dependent : String
  deriving DecidableEq, Repr

namespace Edge

def toJson (e : Edge) : Json :=
  Json.record [("from", some (.str e.dependency)), ("to", some (.str e.dependent))]

def ofJson? (v : Json) : Option Edge := do
  match ← v.fields? ["from", "to"] with
  | [dependency, dependent] =>
    some ⟨← Json.required Json.text? dependency, ← Json.required Json.text? dependent⟩
  | _ => none

end Edge

/-- A dependency graph. -/
structure Graph where
  /-- Feature ids in the order of declaration. -/
  nodes : List String
  edges : List Edge
  deriving DecidableEq, Repr

namespace Graph

/-- What a feature depends on, in the order of the edges. -/
def dependenciesOf (g : Graph) (id : String) : List String :=
  (g.edges.filter (·.dependent == id)).map Edge.dependency

/-- What depends on a feature, in the order of the edges. -/
def dependentsOf (g : Graph) (id : String) : List String :=
  (g.edges.filter (·.dependency == id)).map Edge.dependent

def toJson (g : Graph) : Json :=
  Json.record [("nodes", some (.arr (g.nodes.map .str))),
    ("edges", some (.arr (g.edges.map Edge.toJson)))]

def ofJson? (v : Json) : Option Graph := do
  match ← v.fields? ["nodes", "edges"] with
  | [nodes, edges] =>
    some ⟨← Json.required (Json.list? Json.text?) nodes,
      ← Json.required (Json.list? Edge.ofJson?) edges⟩
  | _ => none

end Graph

-- =============================================================== errors

/-- Why features have no graph, or a graph has no order. -/
inductive GraphError where
  /-- A feature whose id is blank. -/
  | featureIdRequired (index : Nat)
  /-- An id that stands twice. -/
  | featureDuplicate (id : String)
  /-- A profile that is declared twice. -/
  | profileDuplicate (name first second : String)
  /-- An output that is produced twice. -/
  | outputDuplicate (name first second : String)
  /-- An explicit dependency on no feature. -/
  | depMissing (feature dep : String)
  /-- A reference to a profile that no sketch declares. -/
  | profileMissing (feature name : String)
  /-- A selector of an output that no feature produces. -/
  | selectorNamedMissing (feature field name : String)
  /-- A predicate on a creator that is no feature. -/
  | createdByMissing (feature field target : String)
  /-- A reference to a layout that is none. -/
  | patternMissing (feature name : String)
  /-- A free query of a feature without explicit dependencies. -/
  | anchorMissing (feature field selector : String)
  /-- Features of which each depends on the one before it and the first on
  the last. -/
  | cycle (nodes : List String)
  /-- An edge whose end is no node. -/
  | edgeUnknown (dependency dependent : String)
  deriving DecidableEq, Repr

namespace GraphError

def code : GraphError → String
  | featureIdRequired _ => "validation_feature_id_required"
  | featureDuplicate _ => "validation_feature_duplicate"
  | profileDuplicate _ _ _ => "profile_duplicate"
  | outputDuplicate _ _ _ => "output_duplicate"
  | depMissing _ _ => "dep_missing"
  | profileMissing _ _ => "profile_missing"
  | selectorNamedMissing _ _ _ => "selector_named_missing"
  | createdByMissing _ _ _ => "pred_created_by_missing"
  | patternMissing _ _ => "pattern_missing"
  | anchorMissing _ _ _ => "selector_anchor_missing"
  | cycle _ => "graph_cycle"
  | edgeUnknown _ _ => "graph_edge_unknown"

/-- A cycle as a message shows it: closed by its first node. -/
def cycleText (nodes : List String) : String :=
  String.intercalate " -> " (nodes ++ nodes.head?.toList)

def message : GraphError → String
  | featureIdRequired index => "Feature at index " ++ toString index ++ " has an empty id"
  | featureDuplicate id => "Duplicate feature id: " ++ id
  | profileDuplicate name first second =>
    "Profile " ++ name ++ " declared by both " ++ first ++ " and " ++ second
  | outputDuplicate name first second =>
    "Output " ++ name ++ " produced by both " ++ first ++ " and " ++ second
  | depMissing feature dep => "Feature " ++ feature ++ " depends on unknown feature " ++ dep
  | profileMissing feature name => "Feature " ++ feature ++ " references unknown profile " ++ name
  | selectorNamedMissing feature field name =>
    "Feature " ++ feature ++ "." ++ field ++ " references unknown output " ++ name
  | createdByMissing feature field target =>
    "Feature " ++ feature ++ "." ++ field ++ " has createdBy(" ++ target
      ++ ") but no such feature exists"
  | patternMissing feature name =>
    "Feature " ++ feature ++ " references " ++ name ++ ", which is not a pattern feature"
  | anchorMissing feature field selector =>
    "Feature " ++ feature ++ "." ++ field ++ ": " ++ selector
      ++ " has no createdBy or named anchor and the feature declares no deps"
  | cycle nodes => "Dependency cycle: " ++ cycleText nodes
  | edgeUnknown dependency dependent =>
    "Edge " ++ dependency ++ " -> " ++ dependent ++ " references an unknown node"

end GraphError
end PartPlan
