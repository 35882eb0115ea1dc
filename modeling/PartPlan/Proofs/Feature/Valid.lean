/-
What makes a feature valid, and what it then becomes. Both are said here field
by field, for each kind of feature and without regard to how normalization
goes about it: which fields are sizes and which are plain lengths, in which
dimension a scalar is evaluated, and what else a field has to be.
-/
import PartPlan.Feature.Normal
import PartPlan.Proofs.Number.Value

namespace PartPlan

/-- A field that may be left out satisfies `P` if it is there. -/
def IfGiven {α : Type} (P : α → Prop) (o : Option α) : Prop := ∀ a ∈ o, P a

@[simp] theorem ifGiven_none {α : Type} (P : α → Prop) : IfGiven P none := by
  intro a h
  cases h

@[simp] theorem ifGiven_some {α : Type} {P : α → Prop} {a : α} : IfGiven P (some a) ↔ P a := by
  refine ⟨fun h => h a rfl, fun h b same => ?_⟩
  cases same
  exact h

@[simp] theorem ifGiven_trivial {α : Type} (o : Option α) : IfGiven (fun _ => True) o :=
  fun _ _ => trivial

/-- All members of a field satisfy `P`. -/
def Each {α : Type} (P : α → Prop) (l : List α) : Prop := ∀ a ∈ l, P a

-- ================================================================ numbers

namespace Scalar

/-- The number that a scalar is in a dimension. -/
def number (table : ParamTable) (d : Dimension) (s : Scalar) : Float :=
  match s.eval table d with
  | .ok x => x
  | .error _ => 0

/-- A scalar with its number in its place. -/
def evaluated (table : ParamTable) (d : Dimension) (s : Scalar) : Scalar :=
  .value (s.number table d)

/-- A scalar evaluates in a dimension without error to a finite number. -/
def IsNumber (table : ParamTable) (d : Dimension) (s : Scalar) : Prop :=
  ∃ x, s.eval table d = .ok x ∧ x.isFinite = true

/-- A scalar is a length above zero. -/
def IsSize (table : ParamTable) (s : Scalar) : Prop :=
  s.IsNumber table .length ∧ 0 < Number.value (s.number table .length)

/-- A scalar is an integer from `minimum` upwards. -/
def IsCount (table : ParamTable) (minimum : ℕ) (s : Scalar) : Prop :=
  s.IsNumber table .count ∧ ∃ n : ℕ, minimum ≤ n ∧ Number.value (s.number table .count) = n

end Scalar

-- ================================================================= points

namespace Point2

/-- Both coordinates of a point are lengths. -/
def IsPosition (table : ParamTable) (p : Point2) : Prop :=
  p.x.IsNumber table .length ∧ p.y.IsNumber table .length

def evaluated (table : ParamTable) (p : Point2) : Point2 :=
  ⟨p.x.evaluated table .length, p.y.evaluated table .length⟩

end Point2

namespace Point3

/-- The three components are numbers in a dimension. -/
def IsTriple (table : ParamTable) (d : Dimension) (p : Point3) : Prop :=
  p.x.IsNumber table d ∧ p.y.IsNumber table d ∧ p.z.IsNumber table d

/-- The three components are zero. -/
def IsZero (table : ParamTable) (d : Dimension) (p : Point3) : Prop :=
  Number.value (p.x.number table d) = 0 ∧ Number.value (p.y.number table d) = 0
    ∧ Number.value (p.z.number table d) = 0

def evaluated (table : ParamTable) (d : Dimension) (p : Point3) : Point3 :=
  ⟨p.x.evaluated table d, p.y.evaluated table d, p.z.evaluated table d⟩

end Point3

-- ================================================= axes, extents, profiles

namespace Axis

/-- The components of a vector are factors and not all zero. -/
def Valid (table : ParamTable) : Axis → Prop
  | vector p => p.IsTriple table .count ∧ ¬p.IsZero table .count
  | direction _ => True
  | sketchNormal => True

def evaluated (table : ParamTable) : Axis → Axis
  | vector p => vector (p.evaluated table .count)
  | direction d => direction d
  | sketchNormal => sketchNormal

end Axis

namespace Depth

/-- A distance is a size. -/
def Valid (table : ParamTable) : Depth → Prop
  | distance s => s.IsSize table
  | throughAll => True

def evaluated (table : ParamTable) : Depth → Depth
  | distance s => distance (s.evaluated table .length)
  | throughAll => throughAll

end Depth

namespace Sweep

/-- A turn is an angle. -/
def Valid (table : ParamTable) : Sweep → Prop
  | angle s => s.IsNumber table .angle
  | full => True

def evaluated (table : ParamTable) : Sweep → Sweep
  | angle s => angle (s.evaluated table .angle)
  | full => full

end Sweep

namespace Profile

/-- The measures of a figure are sizes, a polygon has three sides or more, and
its rotation is an angle. -/
def Valid (table : ParamTable) : Profile → Prop
  | rectangle width height center =>
    width.IsSize table ∧ height.IsSize table ∧ center.IsPosition table
  | circle radius center => radius.IsSize table ∧ center.IsPosition table
  | polygon sides radius center rotation =>
    sides.IsCount table 3 ∧ radius.IsSize table ∧ center.IsPosition table
      ∧ IfGiven (Scalar.IsNumber table .angle) rotation
  | ref _ => True

def evaluated (table : ParamTable) : Profile → Profile
  | rectangle width height center =>
    rectangle (width.evaluated table .length) (height.evaluated table .length)
      (center.evaluated table)
  | circle radius center => circle (radius.evaluated table .length) (center.evaluated table)
  | polygon sides radius center rotation =>
    polygon (sides.evaluated table .count) (radius.evaluated table .length)
      (center.evaluated table) (rotation.map (Scalar.evaluated table .angle))
  | ref name => ref name

/-- A profile is spelled out. -/
def IsFigure (p : Profile) : Prop := ∀ name, p ≠ ref name

end Profile

namespace NamedProfile

/-- What a sketch declares is a figure, not one more name. -/
def Valid (table : ParamTable) (p : NamedProfile) : Prop :=
  p.profile.Valid table ∧ p.profile.IsFigure

def evaluated (table : ParamTable) (p : NamedProfile) : NamedProfile :=
  { p with profile := p.profile.evaluated table }

end NamedProfile

/-- The word `body` or `surface`, a colon, and at least one letter, digit,
underscore, point or hyphen. -/
def IsOutputName (s : String) : Prop :=
  ∃ word ∈ ["body", "surface"], ∃ rest : List Char, rest ≠ []
    ∧ (∀ c ∈ rest, c.isAlphanum = true ∨ c ∈ ['_', '.', '-'])
    ∧ s = word ++ ":" ++ String.ofList rest

-- =============================================================== features

namespace FeatureKind

/-- What a feature of each kind has to satisfy, field by field. -/
def Valid (table : ParamTable) : (k : FeatureKind) → Payload k.slots → Prop
  | datumPlane, (_normal, offset, _) => Scalar.IsNumber table .length offset
  | datumAxis, (direction, origin, _) =>
    Axis.Valid table direction ∧ Point3.IsTriple table .length origin
  | datumFrame, (_on, _) => True
  | sketch, (_plane, profiles, _) => Each (NamedProfile.Valid table) profiles
  | extrude, (profile, depth, axis, result, _pattern, _) =>
    Profile.Valid table profile ∧ Depth.Valid table depth
      ∧ IfGiven (Axis.Valid table) axis ∧ IsOutputName result
  | revolve, (profile, axis, angle, result, _) =>
    Profile.Valid table profile ∧ Axis.Valid table axis ∧ Sweep.Valid table angle
      ∧ IsOutputName result
  | loft, (profiles, result, _) =>
    2 ≤ List.length profiles ∧ Each (Profile.Valid table) profiles
      ∧ IsOutputName result
  | hole, (_on, position, diameter, depth, _pattern, result, _) =>
    Point2.IsPosition table position ∧ Scalar.IsSize table diameter ∧ Depth.Valid table depth
      ∧ IfGiven IsOutputName result
  | fillet, (_edges, radius, result, _) =>
    Scalar.IsSize table radius ∧ IfGiven IsOutputName result
  | chamfer, (_edges, distance, result, _) =>
    Scalar.IsSize table distance ∧ IfGiven IsOutputName result
  | shell, (_target, _remove, thickness, result, _) =>
    Scalar.IsSize table thickness ∧ IfGiven IsOutputName result
  | mirror, (_source, _plane, result, _) => IsOutputName result
  | boolean, (_op, _left, _right, result, _) => IsOutputName result
  | linearPattern, (_origin, _direction, spacing, count, _) =>
    Scalar.IsSize table spacing ∧ Scalar.IsCount table 1 count
  | circularPattern, (_origin, axis, count, angle, _) =>
    Axis.Valid table axis ∧ Scalar.IsCount table 1 count ∧ Sweep.Valid table angle

/-- What the fields of each kind become: scalars their numbers, selectors their
normal forms, and nothing else changes. -/
def evaluated (table : ParamTable) : (k : FeatureKind) → Payload k.slots → Payload k.slots
  | datumPlane, (normal, offset, _) => (normal, Scalar.evaluated table .length offset, ())
  | datumAxis, (direction, origin, _) =>
    (Axis.evaluated table direction, Point3.evaluated table .length origin, ())
  | datumFrame, (on, _) => (Selector.normal on, ())
  | sketch, (plane, profiles, _) =>
    (Option.map Selector.normal plane, List.map (NamedProfile.evaluated table) profiles, ())
  | extrude, (profile, depth, axis, result, pattern, _) =>
    (Profile.evaluated table profile, Depth.evaluated table depth,
      Option.map (Axis.evaluated table) axis, result, pattern, ())
  | revolve, (profile, axis, angle, result, _) =>
    (Profile.evaluated table profile, Axis.evaluated table axis, Sweep.evaluated table angle,
      result, ())
  | loft, (profiles, result, _) => (List.map (Profile.evaluated table) profiles, result, ())
  | hole, (on, position, diameter, depth, pattern, result, _) =>
    (Selector.normal on, Point2.evaluated table position, Scalar.evaluated table .length diameter,
      Depth.evaluated table depth, pattern, result, ())
  | fillet, (edges, radius, result, _) =>
    (Selector.normal edges, Scalar.evaluated table .length radius, result, ())
  | chamfer, (edges, distance, result, _) =>
    (Selector.normal edges, Scalar.evaluated table .length distance, result, ())
  | shell, (target, remove, thickness, result, _) =>
    (Selector.normal target, Option.map Selector.normal remove,
      Scalar.evaluated table .length thickness, result, ())
  | mirror, (source, plane, result, _) =>
    (Selector.normal source, Selector.normal plane, result, ())
  | boolean, (op, left, right, result, _) =>
    (op, Selector.normal left, Selector.normal right, result, ())
  | linearPattern, (origin, direction, spacing, count, _) =>
    (Selector.normal origin, direction, Scalar.evaluated table .length spacing,
      Scalar.evaluated table .count count, ())
  | circularPattern, (origin, axis, count, angle, _) =>
    (Selector.normal origin, Axis.evaluated table axis, Scalar.evaluated table .count count,
      Sweep.evaluated table angle, ())

end FeatureKind

namespace Feature

/-- A feature has an id that is not blank, and its fields are as they have to
be. -/
def Valid (table : ParamTable) (f : Feature) : Prop :=
  Text.trim f.id ≠ "" ∧ f.kind.Valid table f.payload

/-- A feature with its numbers and the normal forms of its selectors. -/
def evaluated (table : ParamTable) (f : Feature) : Feature :=
  ⟨f.id, f.deps, f.tags, f.kind, f.kind.evaluated table f.payload⟩

end Feature
end PartPlan
