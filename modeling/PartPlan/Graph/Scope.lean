/-
The names that the features of a part declare: their ids, the profiles of
sketches, the outputs, and which of the features are layouts. Ids, profiles
and outputs must each be unique in the part.
-/
import PartPlan.Feature.Basic
import PartPlan.Graph.Basic
import PartPlan.Selector.Anchors
import PartPlan.Text.Blank

namespace PartPlan

/-- The names declared in a part. -/
structure Scope where
  ids : TextSet
  /-- For each profile the sketch that declares it. -/
  profiles : SortedMap String
  /-- For each output the feature that produces it. -/
  outputs : SortedMap String
  /-- The ids of layouts. -/
  patterns : TextSet

namespace Scope

/-- The scope without names. -/
def empty : Scope := ⟨.empty, .empty, .empty, .empty⟩

/-- Names declared by one owner, none of which may have an owner yet. -/
def declare (duplicate : String → String → String → GraphError) (owner : String)
    (names : List String) (owners : SortedMap String) : Except GraphError (SortedMap String) :=
  names.foldlM (fun owners name =>
    match owners.find? name with
    | some first => .error (duplicate name first owner)
    | none => .ok (owners.insert name owner)) owners

/-- The scope with the names of one more feature. -/
def add (scope : Scope) (f : Feature) (index : Nat) : Except GraphError Scope := do
  if Text.isBlankText f.id then throw (.featureIdRequired index)
  if scope.ids.contains f.id then throw (.featureDuplicate f.id)
  let profiles ← declare .profileDuplicate f.id f.declaredProfiles scope.profiles
  let outputs ← declare .outputDuplicate f.id f.outputs scope.outputs
  pure {
    ids := scope.ids.insert f.id ()
    profiles
    outputs
    patterns := if f.isPattern then scope.patterns.insert f.id () else scope.patterns }

/-- The scope of a list of features. -/
def collect (features : List Feature) : Except GraphError Scope :=
  features.zipIdx.foldlM (fun scope (f, index) => scope.add f index) empty

/-- The names that the anchors of selectors are looked up in. -/
def anchorScope (scope : Scope) : AnchorScope := ⟨scope.ids.contains, scope.outputs.find?⟩

end Scope
end PartPlan
