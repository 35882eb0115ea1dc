/-
Directions, points and axes. A direction is one of the six signed principal
axes and is written as a literal such as `+X`; an axis is a direction, a
vector, or the normal of the sketch that a profile lies on.
-/
import PartPlan.Scalar.Basic
import PartPlan.Text.Blank
import PartPlan.Validation

namespace PartPlan

/-- A signed principal axis. -/
inductive Direction where
  | posX
  | negX
  | posY
  | negY
  | posZ
  | negZ
  deriving DecidableEq, Repr

namespace Direction

/-- The literal of a direction. -/
def literal : Direction → String
  | posX => "+X"
  | negX => "-X"
  | posY => "+Y"
  | negY => "-Y"
  | posZ => "+Z"
  | negZ => "-Z"

def all : List Direction := [posX, negX, posY, negY, posZ, negZ]

/-- The direction whose literal a text is, blanks around it aside. -/
def ofLiteral? (s : String) : Option Direction :=
  all.find? fun d => d.literal == Text.trim s

/-- The direction of a literal, or the reason why there is none. -/
def ofLiteral (s : String) : Except ValidationError Direction :=
  match ofLiteral? s with
  | some d => .ok d
  | none => .error (.axisUnknown s)

def toJson (d : Direction) : Json := .str d.literal

def ofJson? (v : Json) : Option Direction := v.text?.bind ofLiteral?

end Direction

-- =============================================================== points

/-- A point in a plane. -/
structure Point2 where
  x : Scalar
  y : Scalar
  deriving DecidableEq, Repr

namespace Point2

/-- The origin. -/
def origin : Point2 := ⟨.zero, .zero⟩

def toJson (p : Point2) : Json := .arr [p.x.toJson, p.y.toJson]

/-- The point a list of two scalars stands for. -/
def ofReadable? : Json → Option Point2
  | .arr [x, y] => do some ⟨← Scalar.ofReadable? x, ← Scalar.ofReadable? y⟩
  | _ => none

end Point2

/-- A point or a vector in space. -/
structure Point3 where
  x : Scalar
  y : Scalar
  z : Scalar
  deriving DecidableEq, Repr

namespace Point3

/-- The origin. -/
def origin : Point3 := ⟨.zero, .zero, .zero⟩

def toJson (p : Point3) : Json := .arr [p.x.toJson, p.y.toJson, p.z.toJson]

/-- The point a list of three scalars stands for. -/
def ofReadable? : Json → Option Point3
  | .arr [x, y, z] => do
    some ⟨← Scalar.ofReadable? x, ← Scalar.ofReadable? y, ← Scalar.ofReadable? z⟩
  | _ => none

end Point3

-- ================================================================= axes

/-- An axis. -/
inductive Axis where
  | direction (d : Direction)
  | vector (components : Point3)
  | sketchNormal
  deriving DecidableEq, Repr

namespace Axis

/-- The forms of an axis that is written as a tagged record. -/
inductive Form where
  | vector
  | sketchNormal
  deriving DecidableEq, Repr

def forms : List (String × Form) :=
  [("axis.vector", .vector), ("axis.sketch.normal", .sketchNormal)]

/-- The fields of each form. -/
def Form.fields : Form → List String
  | .vector => ["direction"]
  | .sketchNormal => []

/-- A direction is written as its literal, and any other axis as a tagged
record. -/
def toJson : Axis → Json
  | direction d => d.toJson
  | vector components => Json.taggedRecord "axis.vector" [("direction", some components.toJson)]
  | sketchNormal => Json.taggedRecord "axis.sketch.normal" []

/-- The axis a readable value stands for: a literal is a direction, and
anything else has to be a tagged record. -/
def ofReadable? (v : Json) : Option Axis :=
  match v with
  | .str s => .direction <$> Direction.ofLiteral? s
  | _ =>
    match Json.taggedFields? .namedOrNumbered forms Form.fields v with
    | some (.vector, [components]) => .vector <$> Json.required Point3.ofReadable? components
    | some (.sketchNormal, _) => some .sketchNormal
    | _ => none

def ofJson? (v : Json) : Option Axis := do ofReadable? (← v.whole?)

end Axis
end PartPlan
