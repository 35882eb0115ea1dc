/-
Normalization of features. Every scalar becomes the number it evaluates to
and every selector its normal form; nothing else changes. On the way each
slot type makes its own demands: sizes are above zero, counts are integers
from one upwards, an axis vector is not zero, a loft has two sections, and
an output name has the right shape. Slots are visited in their order and the
first failure is the answer.
-/
import PartPlan.Feature.Basic
import PartPlan.Params
import PartPlan.Selector.Normal

namespace PartPlan

/-- What normalization of one feature needs: the parameters, and the id of
the feature for error messages. -/
structure Normalizer where
  table : ParamTable
  owner : String

namespace Normalizer

/-- The name of a place in the feature. -/
def place (n : Normalizer) (field : String) : String := n.owner ++ "." ++ field

/-- The finite number at a place. -/
def number (n : Normalizer) (s : Scalar) (d : Dimension) (field : String) :
    Except ValidationError Float :=
  n.table.evaluate s d (n.place field)

/-- Any length. -/
def length (n : Normalizer) (s : Scalar) (field : String) : Except ValidationError Scalar := do
  pure (.value (← n.number s .length field))

/-- Any angle. -/
def angle (n : Normalizer) (s : Scalar) (field : String) : Except ValidationError Scalar := do
  pure (.value (← n.number s .angle field))

/-- A length above zero. -/
def size (n : Normalizer) (s : Scalar) (field : String) : Except ValidationError Scalar := do
  let x ← n.number s .length field
  if x ≤ 0 then throw (.nonPositive (n.place field) x)
  pure (.value x)

/-- An integer from one upwards, and not below a further minimum. -/
def count (n : Normalizer) (minimum : Nat) (s : Scalar) (field : String) :
    Except ValidationError Scalar := do
  let x ← n.number s .count field
  if !Number.isWhole x || x < 1 then throw (.countInvalid (n.place field) x)
  if x < Float.ofNat minimum then
    throw (.profileArity (n.place field)
      ("needs at least " ++ toString minimum ++ ", got " ++ Number.messageText x))
  pure (.value x)

/-- A point in a plane. -/
def point2 (n : Normalizer) (p : Point2) (field : String) : Except ValidationError Point2 := do
  pure ⟨← n.length p.x (field ++ "[0]"), ← n.length p.y (field ++ "[1]")⟩

/-- A point in space. -/
def point3 (n : Normalizer) (p : Point3) (field : String) : Except ValidationError Point3 := do
  pure ⟨← n.length p.x (field ++ "[0]"), ← n.length p.y (field ++ "[1]"),
    ← n.length p.z (field ++ "[2]")⟩

/-- A depth; a distance is above zero. -/
def depth (n : Normalizer) (d : Depth) (field : String) : Except ValidationError Depth :=
  match d with
  | .throughAll => .ok .throughAll
  | .distance s => do pure (.distance (← n.size s field))

/-- A sweep. -/
def sweep (n : Normalizer) (a : Sweep) (field : String) : Except ValidationError Sweep :=
  match a with
  | .full => .ok .full
  | .angle s => do pure (.angle (← n.angle s field))

/-- An axis; the components of a vector are factors and not all zero. -/
def axis (n : Normalizer) (a : Axis) (field : String) : Except ValidationError Axis :=
  match a with
  | .direction d => .ok (.direction d)
  | .sketchNormal => .ok .sketchNormal
  | .vector p => do
    let x ← n.number p.x .count (field ++ "[0]")
    let y ← n.number p.y .count (field ++ "[1]")
    let z ← n.number p.z .count (field ++ "[2]")
    if x == 0 && y == 0 && z == 0 then throw (.axisZero (n.place field))
    pure (.vector ⟨.value x, .value y, .value z⟩)

/-- A profile. A reference is refused where the profile has to be spelled
out. -/
def profile (n : Normalizer) (refAllowed : Bool) (p : Profile) (field : String) :
    Except ValidationError Profile :=
  match p with
  | .rectangle width height center => do
    pure (.rectangle (← n.size width (field ++ ".width")) (← n.size height (field ++ ".height"))
      (← n.point2 center (field ++ ".center")))
  | .circle radius center => do
    pure (.circle (← n.size radius (field ++ ".radius")) (← n.point2 center (field ++ ".center")))
  | .polygon sides radius center rotation => do
    let sides ← n.count 3 sides (field ++ ".sides")
    let radius ← n.size radius (field ++ ".radius")
    let center ← n.point2 center (field ++ ".center")
    let rotation ← match rotation with
      | none => pure none
      | some r => some <$> n.angle r (field ++ ".rotation")
    pure (.polygon sides radius center rotation)
  | .ref name => if refAllowed then .ok (.ref name) else .error (.profileNested (n.place field))

/-- The profiles of a loft. -/
def sections (n : Normalizer) (ps : List Profile) (field : String) :
    Except ValidationError (List Profile) := do
  if ps.length < 2 then
    throw (.profileArity (n.place field)
      ("loft needs at least 2 profiles, got " ++ toString ps.length))
  ps.zipIdx.mapM fun (p, i) => n.profile true p (field ++ "[" ++ toString i ++ "]")

/-- The profiles a sketch declares. -/
def declarations (n : Normalizer) (ps : List NamedProfile) (field : String) :
    Except ValidationError (List NamedProfile) :=
  ps.mapM fun p => do pure ⟨p.name, ← n.profile false p.profile (field ++ "." ++ p.name)⟩

/-- An output name. -/
def output (n : Normalizer) (name : String) : Except ValidationError String :=
  if Text.isOutputName name then .ok name else .error (.outputName n.owner name)

/-- The value of a slot, given the name of the slot. -/
def slot (n : Normalizer) (field : String) : (t : SlotType) → t.Value → Except ValidationError t.Value
  | .direction, v => .ok v
  | .axis, v => n.axis v field
  | .length, v => n.length v field
  | .size, v => n.size v field
  | .count, v => n.count 1 v field
  | .point2, v => n.point2 v field
  | .point3, v => n.point3 v field
  | .depth, v => n.depth v field
  | .sweep, v => n.sweep v field
  | .operation, v => .ok v
  | .profile, v => n.profile true v field
  | .sections, v => n.sections v field
  | .declarations, v => n.declarations v field
  | .geometry _, v => .ok (Selector.normal v)
  | .pattern, v => .ok v
  | .output, v => n.output v

end Normalizer

/-- A feature in normal form. -/
def Feature.normal (table : ParamTable) (f : Feature) : Except ValidationError Feature := do
  let payload ← Payload.mapM (Normalizer.slot ⟨table, f.id⟩) f.kind.slots f.payload
  pure ⟨f.id, f.deps, f.tags, f.kind, payload⟩

end PartPlan
