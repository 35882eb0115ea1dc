/-
Selectors: declarative queries for geometry that was built earlier. A
selector asks for the faces, edges or solids that satisfy every predicate,
narrowed by rank rules, or names an output directly. A rank rule may itself
hold a selector, so the two types are mutual.
-/
import PartPlan.Axis

namespace PartPlan

/-- The kinds of geometry that can be selected. -/
inductive SelectionKind where
  | face
  | edge
  | solid
  deriving DecidableEq, Repr, Inhabited

namespace SelectionKind

def name : SelectionKind → String
  | face => "face"
  | edge => "edge"
  | solid => "solid"

def all : List SelectionKind := [face, edge, solid]

def choices : List (String × SelectionKind) := all.map fun k => (k.name, k)

def toJson (k : SelectionKind) : Json := .str k.name

def ofJson? : Json → Option SelectionKind := Json.keyword? choices

end SelectionKind

/-- A condition on the metadata of a selection. -/
inductive Predicate where
  /-- It lies in a plane. -/
  | planar
  /-- Its normal is the given direction. -/
  | normal (d : Direction)
  /-- The given feature produced it. -/
  | createdBy (feature : String)
  /-- It has the given role. -/
  | role (value : String)
  deriving DecidableEq, Repr

mutual
/-- A way to prefer some candidates over others. -/
inductive RankRule where
  /-- The largest area. -/
  | maxArea
  /-- The lowest centre. -/
  | minZ
  /-- The highest centre. -/
  | maxZ
  /-- The centre nearest to that of the selection the target stands for. -/
  | closestTo (target : Selector)

/-- A query for geometry. -/
inductive Selector where
  /-- The selections of a kind that satisfy every predicate, narrowed by the
  rules in their order. -/
  | query (kind : SelectionKind) (predicates : List Predicate) (rules : List RankRule)
  /-- The selection registered under an output name. -/
  | named (name : String)
end

-- ====================================================== equality of trees

mutual
/-- Whether two rank rules are equal. -/
def RankRule.decEq : (a b : RankRule) → Decidable (a = b)
  | .maxArea, .maxArea => isTrue rfl
  | .minZ, .minZ => isTrue rfl
  | .maxZ, .maxZ => isTrue rfl
  | .closestTo s, .closestTo t =>
    match s.decEq t with
    | isTrue h => isTrue (by rw [h])
    | isFalse h => isFalse (by simpa using h)
  | .maxArea, .minZ | .maxArea, .maxZ | .maxArea, .closestTo _ => isFalse (by simp)
  | .minZ, .maxArea | .minZ, .maxZ | .minZ, .closestTo _ => isFalse (by simp)
  | .maxZ, .maxArea | .maxZ, .minZ | .maxZ, .closestTo _ => isFalse (by simp)
  | .closestTo _, .maxArea | .closestTo _, .minZ | .closestTo _, .maxZ => isFalse (by simp)

/-- Whether two selectors are equal. -/
def Selector.decEq : (a b : Selector) → Decidable (a = b)
  | .named m, .named n =>
    if h : m = n then isTrue (by rw [h]) else isFalse (by simpa using h)
  | .query k ps rs, .query l qs ts =>
    if hk : k = l then
      if hp : ps = qs then
        match rulesDecEq rs ts with
        | isTrue h => isTrue (by rw [hk, hp, h])
        | isFalse h => isFalse (by simp [h])
      else isFalse (by simp [hp])
    else isFalse (by simp [hk])
  | .named _, .query .. => isFalse (by simp)
  | .query .., .named _ => isFalse (by simp)

/-- Whether two lists of rank rules are equal. -/
def rulesDecEq : (a b : List RankRule) → Decidable (a = b)
  | [], [] => isTrue rfl
  | r :: rs, t :: ts =>
    match r.decEq t, rulesDecEq rs ts with
    | isTrue h, isTrue hs => isTrue (by rw [h, hs])
    | isFalse h, _ => isFalse (by simp [h])
    | _, isFalse hs => isFalse (by simp [hs])
  | [], _ :: _ => isFalse (by simp)
  | _ :: _, [] => isFalse (by simp)
end

instance : DecidableEq RankRule := RankRule.decEq
instance : DecidableEq Selector := Selector.decEq

-- ========================================================== descriptions

namespace Selector

/-- How an error message refers to a selector. -/
def description : Selector → String
  | named name => "selector.named(" ++ name ++ ")"
  | query kind ps rs =>
    "selector." ++ kind.name ++ "(" ++ toString ps.length ++ "p, " ++ toString rs.length ++ "r)"

end Selector

-- =============================================================== as JSON

namespace Predicate

/-- The forms of a predicate. -/
inductive Form where
  | planar
  | normal
  | createdBy
  | role
  deriving DecidableEq, Repr

def forms : List (String × Form) :=
  [("pred.planar", .planar), ("pred.normal", .normal), ("pred.createdBy", .createdBy),
    ("pred.role", .role)]

/-- The fields of each form. -/
def Form.fields : Form → List String
  | .planar => []
  | .normal => ["value"]
  | .createdBy => ["featureId"]
  | .role => ["value"]

def toJson : Predicate → Json
  | planar => Json.taggedRecord "pred.planar" []
  | normal d => Json.taggedRecord "pred.normal" [("value", some d.toJson)]
  | createdBy feature => Json.taggedRecord "pred.createdBy" [("featureId", some (.str feature))]
  | role value => Json.taggedRecord "pred.role" [("value", some (.str value))]

def ofReadable? (style : Json.TagStyle) (v : Json) : Option Predicate :=
  match Json.taggedFields? style forms Form.fields v with
  | some (.planar, _) => some .planar
  | some (.normal, [d]) => .normal <$> Json.required Direction.ofJson? d
  | some (.createdBy, [feature]) => .createdBy <$> Json.required Json.text? feature
  | some (.role, [value]) => .role <$> Json.required Json.text? value
  | _ => none

def ofJson? (v : Json) : Option Predicate := do ofReadable? .named (← v.whole?)

end Predicate

/-- The forms of a rank rule. -/
inductive RankRule.Form where
  | maxArea
  | minZ
  | maxZ
  | closestTo
  deriving DecidableEq, Repr

def RankRule.forms : List (String × RankRule.Form) :=
  [("rank.maxArea", .maxArea), ("rank.minZ", .minZ), ("rank.maxZ", .maxZ),
    ("rank.closestTo", .closestTo)]

/-- The fields of each form. -/
def RankRule.Form.fields : RankRule.Form → List String
  | .closestTo => ["target"]
  | _ => []

/-- The forms of a selector. -/
inductive Selector.Form where
  | query (kind : SelectionKind)
  | named
  deriving DecidableEq, Repr

def Selector.forms : List (String × Selector.Form) :=
  [("selector.face", .query .face), ("selector.edge", .query .edge),
    ("selector.solid", .query .solid), ("selector.named", .named)]

/-- The fields of each form. -/
def Selector.Form.fields : Selector.Form → List String
  | .query _ => ["predicates", "rank"]
  | .named => ["name"]

mutual
def RankRule.toJson : RankRule → Json
  | .maxArea => Json.taggedRecord "rank.maxArea" []
  | .minZ => Json.taggedRecord "rank.minZ" []
  | .maxZ => Json.taggedRecord "rank.maxZ" []
  | .closestTo target => Json.taggedRecord "rank.closestTo" [("target", some target.toJson)]

/-- A selector is written as a tagged record; a query always with both of its
lists. -/
def Selector.toJson : Selector → Json
  | .query kind ps rs =>
    Json.taggedRecord ("selector." ++ kind.name)
      [("predicates", some (.arr (ps.map Predicate.toJson))), ("rank", some (.arr (rulesToJson rs)))]
  | .named name => Json.taggedRecord "selector.named" [("name", some (.str name))]

/-- Rank rules as the items of a list. -/
def rulesToJson : List RankRule → List Json
  | [] => []
  | r :: rs => r.toJson :: rulesToJson rs
end

mutual
def RankRule.ofReadable? (style : Json.TagStyle) (v : Json) : Option RankRule :=
  match _ : Json.taggedFields? style RankRule.forms RankRule.Form.fields v with
  | some (.maxArea, _) => some .maxArea
  | some (.minZ, _) => some .minZ
  | some (.maxZ, _) => some .maxZ
  | some (.closestTo, [some target]) => .closestTo <$> Selector.ofReadable? .namedOrNumbered target
  | _ => none
termination_by sizeOf v
decreasing_by exact Json.sizeOf_lt_of_taggedFields? ‹_› (by simp)

def Selector.ofReadable? (style : Json.TagStyle) (v : Json) : Option Selector :=
  match _ : Json.taggedFields? style Selector.forms Selector.Form.fields v with
  | some (.named, [name]) => .named <$> Json.required Json.text? name
  | some (.query kind, [ps, none]) => do
    let ps ← Json.defaulted [] (Json.list? (Predicate.ofReadable? .namedOrNumbered)) ps
    some (.query kind ps [])
  | some (.query kind, [ps, some (.arr items)]) => do
    let ps ← Json.defaulted [] (Json.list? (Predicate.ofReadable? .namedOrNumbered)) ps
    let rs ← rulesOfReadable? items
    some (.query kind ps rs)
  | _ => none
termination_by sizeOf v
decreasing_by
  have := Json.sizeOf_lt_of_taggedFields? ‹_› (w := .arr items) (by simp)
  simp only [Json.arr.sizeOf_spec] at this
  omega

/-- The rank rules readable values stand for. -/
def rulesOfReadable? (items : List Json) : Option (List RankRule) :=
  match items with
  | [] => some []
  | v :: vs => do
    let r ← RankRule.ofReadable? .namedOrNumbered v
    let rs ← rulesOfReadable? vs
    some (r :: rs)
termination_by sizeOf items
end

def RankRule.ofJson? (v : Json) : Option RankRule := do RankRule.ofReadable? .named (← v.whole?)

def Selector.ofJson? (v : Json) : Option Selector := do Selector.ofReadable? .named (← v.whole?)

end PartPlan
