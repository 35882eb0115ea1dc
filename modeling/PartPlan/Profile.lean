/-
Profiles and the extents of the features that use them. A profile is a plane
figure or a reference to one that a sketch names; a depth is a distance or
goes through everything; a sweep is an angle or a full turn.
-/
import PartPlan.Axis

namespace PartPlan

/-- A plane figure. -/
inductive Profile where
  | rectangle (width height : Scalar) (center : Point2)
  | circle (radius : Scalar) (center : Point2)
  /-- A regular polygon with the given number of sides. -/
  | polygon (sides radius : Scalar) (center : Point2) (rotation : Option Scalar)
  /-- A profile that a sketch declares. -/
  | ref (name : String)
  deriving DecidableEq, Repr

namespace Profile

/-- The name a reference refers to. -/
def refName? : Profile → Option String
  | ref name => some name
  | _ => none

/-- The forms of a profile. -/
inductive Form where
  | rectangle
  | circle
  | polygon
  | ref
  deriving DecidableEq, Repr

def forms : List (String × Form) :=
  [("profile.rectangle", .rectangle), ("profile.circle", .circle), ("profile.poly", .polygon),
    ("profile.ref", .ref)]

/-- The fields of each form. -/
def Form.fields : Form → List String
  | .rectangle => ["width", "height", "center"]
  | .circle => ["radius", "center"]
  | .polygon => ["sides", "radius", "center", "rotation"]
  | .ref => ["name"]

def toJson : Profile → Json
  | rectangle width height center =>
    Json.taggedRecord "profile.rectangle"
      [("width", some width.toJson), ("height", some height.toJson),
        ("center", some center.toJson)]
  | circle radius center =>
    Json.taggedRecord "profile.circle"
      [("radius", some radius.toJson), ("center", some center.toJson)]
  | polygon sides radius center rotation =>
    Json.taggedRecord "profile.poly"
      [("sides", some sides.toJson), ("radius", some radius.toJson),
        ("center", some center.toJson), ("rotation", rotation.map Scalar.toJson)]
  | ref name => Json.taggedRecord "profile.ref" [("name", some (.str name))]

def ofReadable? (style : Json.TagStyle) (v : Json) : Option Profile :=
  match Json.taggedFields? style forms Form.fields v with
  | some (.rectangle, [width, height, center]) => do
    some (.rectangle (← Json.required Scalar.ofReadable? width)
      (← Json.required Scalar.ofReadable? height)
      (← Json.defaulted .origin Point2.ofReadable? center))
  | some (.circle, [radius, center]) => do
    some (.circle (← Json.required Scalar.ofReadable? radius)
      (← Json.defaulted .origin Point2.ofReadable? center))
  | some (.polygon, [sides, radius, center, rotation]) => do
    some (.polygon (← Json.required Scalar.ofReadable? sides)
      (← Json.required Scalar.ofReadable? radius)
      (← Json.defaulted .origin Point2.ofReadable? center)
      (← Json.optional Scalar.ofReadable? rotation))
  | some (.ref, [name]) => .ref <$> Json.required Json.text? name
  | _ => none

def ofJson? (v : Json) : Option Profile := do ofReadable? .named (← v.whole?)

end Profile

/-- A profile under the name by which other features refer to it. -/
structure NamedProfile where
  name : String
  profile : Profile
  deriving DecidableEq, Repr

namespace NamedProfile

def toJson (p : NamedProfile) : Json :=
  Json.record [("name", some (.str p.name)), ("profile", some p.profile.toJson)]

def ofReadable? (v : Json) : Option NamedProfile := do
  match ← v.fields? ["name", "profile"] with
  | [name, profile] =>
    some ⟨← Json.required Json.text? name,
      ← Json.required (Profile.ofReadable? .namedOrNumbered) profile⟩
  | _ => none

end NamedProfile

-- ============================================================== extents

/-- How far an extrusion or a hole goes. -/
inductive Depth where
  | throughAll
  | distance (d : Scalar)
  deriving DecidableEq, Repr

namespace Depth

/-- The keyword for going through everything. -/
def choices : List (String × Depth) := [("throughAll", .throughAll)]

/-- A depth is written as its keyword or as a scalar. -/
def toJson : Depth → Json
  | throughAll => .str "throughAll"
  | distance d => d.toJson

/-- The depth a readable value stands for: the keyword if it is that, and
otherwise a scalar. -/
def ofReadable? (v : Json) : Option Depth :=
  match Json.keyword? choices v with
  | some d => some d
  | none => .distance <$> Scalar.ofReadable? v

def ofJson? (v : Json) : Option Depth := do ofReadable? (← v.whole?)

end Depth

/-- How far a revolution or a circular layout turns. -/
inductive Sweep where
  | full
  | angle (a : Scalar)
  deriving DecidableEq, Repr

namespace Sweep

/-- The keyword for a full turn. -/
def choices : List (String × Sweep) := [("full", .full)]

/-- A sweep is written as its keyword or as a scalar. -/
def toJson : Sweep → Json
  | full => .str "full"
  | angle a => a.toJson

/-- The sweep a readable value stands for: the keyword if it is that, and
otherwise a scalar. -/
def ofReadable? (v : Json) : Option Sweep :=
  match Json.keyword? choices v with
  | some a => some a
  | none => .angle <$> Scalar.ofReadable? v

def ofJson? (v : Json) : Option Sweep := do ofReadable? (← v.whole?)

end Sweep

/-- A reference to the layout that replicates a feature. -/
structure PatternRef where
  name : String
  deriving DecidableEq, Repr

namespace PatternRef

def toJson (r : PatternRef) : Json :=
  Json.taggedRecord "pattern.ref" [("name", some (.str r.name))]

def ofReadable? (style : Json.TagStyle) (v : Json) : Option PatternRef :=
  match Json.taggedFields? style [("pattern.ref", ())] (fun _ => ["name"]) v with
  | some (_, [name]) => PatternRef.mk <$> Json.required Json.text? name
  | _ => none

def ofJson? (v : Json) : Option PatternRef := do ofReadable? .named (← v.whole?)

end PatternRef
end PartPlan
