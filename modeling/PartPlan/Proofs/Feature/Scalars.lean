/-
The scalars of a feature: every place where its author may write an expression.
Nothing else in a feature is evaluated, so its normal form depends on no more of
the parameters than the numbers of its scalars (`Feature.evaluated_congr`).
-/
import PartPlan.Proofs.Feature.Acceptance
import PartPlan.Proofs.Feature.Slots

namespace PartPlan

/-- The coordinates of a point. -/
def Point2.scalars (p : Point2) : List Scalar := [p.x, p.y]

/-- The components of a point or vector. -/
def Point3.scalars (p : Point3) : List Scalar := [p.x, p.y, p.z]

/-- The components of an axis that is a vector. -/
def Axis.scalars : Axis → List Scalar
  | vector p => p.scalars
  | direction _ => []
  | sketchNormal => []

/-- The distance of a depth. -/
def Depth.scalars : Depth → List Scalar
  | distance s => [s]
  | throughAll => []

/-- The angle of a sweep. -/
def Sweep.scalars : Sweep → List Scalar
  | angle s => [s]
  | full => []

/-- The measures of a profile. -/
def Profile.scalars : Profile → List Scalar
  | rectangle width height center => width :: height :: center.scalars
  | circle radius center => radius :: center.scalars
  | polygon sides radius center rotation =>
    sides :: radius :: (center.scalars ++ rotation.toList)
  | ref _ => []

/-- The scalars in a value of a slot type. -/
def SlotType.scalars : (t : SlotType) → t.Value → List Scalar
  | .direction, _ => []
  | .axis, v => Axis.scalars v
  | .length, v => [v]
  | .size, v => [v]
  | .count, v => [v]
  | .point2, v => Point2.scalars v
  | .point3, v => Point3.scalars v
  | .depth, v => Depth.scalars v
  | .sweep, v => Sweep.scalars v
  | .operation, _ => []
  | .profile, v => Profile.scalars v
  | .sections, v => List.flatMap Profile.scalars v
  | .declarations, v => List.flatMap (fun p => p.profile.scalars) v
  | .geometry _, _ => []
  | .pattern, _ => []
  | .output, _ => []

/-- The scalars of a feature. -/
def Feature.scalars (f : Feature) : List Scalar :=
  f.entries.flatMap fun e => e.type.scalars e.value

variable {table table' : ParamTable}

/-- All scalars of a list are the same numbers for two tables. -/
def SameNumbers (table table' : ParamTable) (scalars : List Scalar) : Prop :=
  ∀ s ∈ scalars, ∀ d, s.evaluated table d = s.evaluated table' d

theorem sameNumbers_cons {s : Scalar} {scalars : List Scalar} :
    SameNumbers table table' (s :: scalars)
      ↔ (∀ d, s.evaluated table d = s.evaluated table' d) ∧ SameNumbers table table' scalars :=
  List.forall_mem_cons

theorem Point2.evaluated_congr {p : Point2} (same : SameNumbers table table' p.scalars) :
    p.evaluated table = p.evaluated table' := by
  unfold evaluated
  rw [same p.x (by simp [scalars]), same p.y (by simp [scalars])]

theorem Point3.evaluated_congr {p : Point3} (same : SameNumbers table table' p.scalars)
    (d : Dimension) : p.evaluated table d = p.evaluated table' d := by
  unfold evaluated
  rw [same p.x (by simp [scalars]), same p.y (by simp [scalars]), same p.z (by simp [scalars])]

theorem Axis.evaluated_congr {a : Axis} (same : SameNumbers table table' a.scalars) :
    a.evaluated table = a.evaluated table' := by
  cases a with
  | vector p => exact congrArg vector (Point3.evaluated_congr same .count)
  | direction d => rfl
  | sketchNormal => rfl

theorem Depth.evaluated_congr {d : Depth} (same : SameNumbers table table' d.scalars) :
    d.evaluated table = d.evaluated table' := by
  cases d with
  | distance s => exact congrArg distance (same s List.mem_cons_self .length)
  | throughAll => rfl

theorem Sweep.evaluated_congr {a : Sweep} (same : SameNumbers table table' a.scalars) :
    a.evaluated table = a.evaluated table' := by
  cases a with
  | angle s => exact congrArg angle (same s List.mem_cons_self .angle)
  | full => rfl

theorem Profile.evaluated_congr {p : Profile} (same : SameNumbers table table' p.scalars) :
    p.evaluated table = p.evaluated table' := by
  cases p with
  | rectangle width height center =>
    obtain ⟨w, same⟩ := sameNumbers_cons.1 same
    obtain ⟨h, c⟩ := sameNumbers_cons.1 same
    rw [evaluated, evaluated, w, h, Point2.evaluated_congr c]
  | circle radius center =>
    obtain ⟨r, c⟩ := sameNumbers_cons.1 same
    rw [evaluated, evaluated, r, Point2.evaluated_congr c]
  | polygon sides radius center rotation =>
    obtain ⟨n, same⟩ := sameNumbers_cons.1 same
    obtain ⟨r, same⟩ := sameNumbers_cons.1 same
    have c : SameNumbers table table' center.scalars :=
      fun s hs => same s (List.mem_append_left _ hs)
    have turn : rotation.map (Scalar.evaluated table .angle)
        = rotation.map (Scalar.evaluated table' .angle) := by
      refine Option.map_congr fun s hs => same s (List.mem_append_right _ ?_) .angle
      exact Option.mem_toList.2 hs
    rw [evaluated, evaluated, n, r, Point2.evaluated_congr c, turn]
  | ref name => rfl

theorem SlotType.evaluated_congr {t : SlotType} {v : t.Value}
    (same : SameNumbers table table' (t.scalars v)) : t.evaluated table v = t.evaluated table' v := by
  cases t with
  | axis => exact Axis.evaluated_congr same
  | length => exact same _ List.mem_cons_self .length
  | size => exact same _ List.mem_cons_self .length
  | count => exact same _ List.mem_cons_self .count
  | point2 => exact Point2.evaluated_congr same
  | point3 => exact Point3.evaluated_congr same .length
  | depth => exact Depth.evaluated_congr same
  | sweep => exact Sweep.evaluated_congr same
  | profile => exact Profile.evaluated_congr same
  | sections =>
    refine List.map_congr_left fun p hp => Profile.evaluated_congr fun s hs => ?_
    exact same s (List.mem_flatMap.2 ⟨p, hp, hs⟩)
  | declarations =>
    refine List.map_congr_left fun p hp => ?_
    have profile : p.profile.evaluated table = p.profile.evaluated table' :=
      Profile.evaluated_congr fun s hs => same s (List.mem_flatMap.2 ⟨p, hp, hs⟩)
    rw [NamedProfile.evaluated, NamedProfile.evaluated, profile]
  | direction => rfl
  | operation => rfl
  | geometry c => rfl
  | pattern => rfl
  | output => rfl

/-- Two tables for which the scalars of a feature are the same numbers give it
the same normal form. -/
theorem Feature.evaluated_congr {f : Feature} (same : SameNumbers table table' f.scalars) :
    f.evaluated table = f.evaluated table' := by
  unfold evaluated
  congr 1
  rw [FeatureKind.evaluated_eq, FeatureKind.evaluated_eq]
  refine Payload.mapM_congr f.payload fun e he => SlotType.evaluated_congr fun s hs => ?_
  exact same s (List.mem_flatMap.2 ⟨e, he, hs⟩)

end PartPlan
