/-
What a selector is pinned to before any geometry exists. A named output pins
it to the feature that declares the output, and a `createdBy` predicate to
the feature it names; the targets of rank rules count as well. A query
without a `createdBy` predicate is free: it depends on whatever exists when
the feature is built.
-/
import PartPlan.Selector.Basic

namespace PartPlan

/-- One thing a selector is pinned to, or a query that is not pinned. -/
inductive Anchor where
  | output (name : String)
  | creator (feature : String)
  | free (query : Selector)

namespace Anchor

/-- The query of an anchor that pins nothing. -/
def query? : Anchor → Option Selector
  | free query => some query
  | _ => none

end Anchor

/-- The feature a predicate names as the creator. -/
def Predicate.creator? : Predicate → Option String
  | createdBy feature => some feature
  | _ => none

/-- The anchors of a query on its own: its creators, or itself if it has
none. -/
def queryAnchors (kind : SelectionKind) (ps : List Predicate) (rs : List RankRule) : List Anchor :=
  match ps.filterMap Predicate.creator? with
  | [] => [.free (.query kind ps rs)]
  | creators => creators.map .creator

mutual
/-- The anchors of a selector, a query before the targets of its rules. -/
def Selector.anchors : Selector → List Anchor
  | .named name => [.output name]
  | .query kind ps rs => queryAnchors kind ps rs ++ rulesAnchors rs

/-- The anchors of the target of a rule. -/
def RankRule.anchors : RankRule → List Anchor
  | .closestTo target => target.anchors
  | .maxArea => []
  | .minZ => []
  | .maxZ => []

/-- The anchors of the targets of rules. -/
def rulesAnchors : List RankRule → List Anchor
  | [] => []
  | r :: rs => r.anchors ++ rulesAnchors rs
end

-- ============================================================= analysis

/-- The names that anchors are looked up in. -/
structure AnchorScope where
  /-- Whether a feature has this id. -/
  hasFeature : String → Bool
  /-- The feature that declares an output. -/
  producer? : String → Option String

/-- An anchor that refers to nothing. -/
inductive AnchorError where
  | namedMissing (name : String)
  | createdByMissing (feature : String)
  deriving DecidableEq, Repr

namespace AnchorError

def code : AnchorError → String
  | namedMissing _ => "named_missing"
  | createdByMissing _ => "created_by_missing"

def message : AnchorError → String
  | namedMissing name => "named output '" ++ name ++ "' is not declared by any feature"
  | createdByMissing feature => "createdBy references unknown feature '" ++ feature ++ "'"

end AnchorError

/-- The feature an anchor pins to, or nothing for a free query. -/
def Anchor.feature? (scope : AnchorScope) : Anchor → Except AnchorError (Option String)
  | output name =>
    match scope.producer? name with
    | some feature => .ok (some feature)
    | none => .error (.namedMissing name)
  | creator feature =>
    if scope.hasFeature feature then .ok (some feature) else .error (.createdByMissing feature)
  | free _ => .ok none

/-- What a selector is pinned to in a scope. -/
structure Anchorage where
  /-- The features it is pinned to. -/
  features : TextSet
  /-- Its free queries, outer before inner. -/
  unanchored : List Selector

/-- Whether every query is pinned to some feature. -/
def Anchorage.isFull (a : Anchorage) : Bool := a.unanchored.isEmpty

/-- What a selector is pinned to, or its first anchor that refers to
nothing. -/
def Selector.analyze (scope : AnchorScope) (s : Selector) : Except AnchorError Anchorage := do
  let features ← s.anchors.mapM (Anchor.feature? scope)
  pure ⟨.ofList (features.filterMap id), s.anchors.filterMap Anchor.query?⟩

end PartPlan
