/-
References between features and the graph they make. `Feature.references`
lists everything a feature refers to, in the order in which it is checked:
explicit dependencies, profiles, the layout, and for each selector its
anchors followed by its first free query. Each reference either leads to a
feature of the scope or is an error; a free query leads nowhere, and is an
error unless the author has given dependencies.
-/
import PartPlan.Graph.Scope

namespace PartPlan

/-- One thing a feature refers to. -/
inductive Reference where
  | dep (id : String)
  | profile (name : String)
  | pattern (id : String)
  /-- An output, named in a selector of the given slot. -/
  | output (field name : String)
  /-- A creator, named in a selector of the given slot. -/
  | creator (field id : String)
  /-- A free query in a selector of the given slot. -/
  | free (field : String) (query : Selector)

/-- The reference an anchor makes in a slot, unless it is a free query. -/
def Anchor.reference? (field : String) : Anchor → Option Reference
  | output name => some (.output field name)
  | creator id => some (.creator field id)
  | free _ => none

/-- The references of a selector in a slot. -/
def SelectorSlot.references (s : SelectorSlot) : List Reference :=
  s.selector.anchors.filterMap (Anchor.reference? s.name)
    ++ (s.selector.anchors.findSome? Anchor.query?).toList.map (.free s.name)

/-- Everything a feature refers to. -/
def Feature.references (f : Feature) : List Reference :=
  f.deps.map .dep ++ f.profileRefs.map .profile ++ f.patternRef?.toList.map (.pattern ·.name)
    ++ f.selectorSlots.flatMap SelectorSlot.references

namespace Scope

/-- The feature a reference of `f` leads to. -/
def resolve (scope : Scope) (f : Feature) : Reference → Except GraphError (Option String)
  | .dep id => if scope.ids.contains id then .ok (some id) else .error (.depMissing f.id id)
  | .profile name =>
    match scope.profiles.find? name with
    | some sketch => .ok (some sketch)
    | none => .error (.profileMissing f.id name)
  | .pattern id =>
    if scope.patterns.contains id then .ok (some id) else .error (.patternMissing f.id id)
  | .output field name =>
    match scope.outputs.find? name with
    | some producer => .ok (some producer)
    | none => .error (.selectorNamedMissing f.id field name)
  | .creator field id =>
    if scope.ids.contains id then .ok (some id) else .error (.createdByMissing f.id field id)
  | .free field query =>
    if f.deps.isEmpty then .error (.anchorMissing f.id field query.description) else .ok none

/-- The features that `f` refers to. -/
def dependencies (scope : Scope) (f : Feature) : Except GraphError TextSet := do
  let found ← f.references.mapM (scope.resolve f)
  pure (.ofList (found.filterMap id))

end Scope

namespace Graph

/-- The edges into a feature, by the order of the ids they come from. -/
def edgesInto (scope : Scope) (f : Feature) : Except GraphError (List Edge) := do
  let deps ← scope.dependencies f
  pure (deps.keys.map fun d => ⟨d, f.id⟩)

/-- The graph of a list of features. -/
def build (features : List Feature) : Except GraphError Graph := do
  let scope ← Scope.collect features
  let edges ← features.mapM (edgesInto scope)
  pure ⟨features.map Feature.id, edges.flatten⟩

end Graph
end PartPlan
