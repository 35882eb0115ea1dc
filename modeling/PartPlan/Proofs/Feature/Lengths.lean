/-
The lengths of a feature: the scalars in it that are evaluated as lengths. Those of a
vector are factors, those of a sweep and of a rotation are angles, and the sides of a
polygon are a count; all others are lengths.

A length can be replaced by any other scalar that comes to the same, and the feature has
the same normal form, or is refused for the same reason (`Feature.normal_mapLengths`).
The normalizer looks at a length only to evaluate it, so this goes from what is evaluated
(`Normalizer.number_congr`) to the slots, and from them to the feature.
-/
import PartPlan.Proofs.Feature.Scalars

namespace PartPlan

-- ================================================================ lengths

/-- The lengths of a profile. -/
def Profile.lengths : Profile → List Scalar
  | rectangle width height center => width :: height :: center.scalars
  | circle radius center => radius :: center.scalars
  | polygon _ radius center _ => radius :: center.scalars
  | ref _ => []

/-- The lengths in a value of a slot type. -/
def SlotType.lengths : (t : SlotType) → t.Value → List Scalar
  | .length, v => [v]
  | .size, v => [v]
  | .point2, v => Point2.scalars v
  | .point3, v => Point3.scalars v
  | .depth, v => Depth.scalars v
  | .profile, v => Profile.lengths v
  | .sections, v => List.flatMap Profile.lengths v
  | .declarations, v => List.flatMap (fun p => p.profile.lengths) v
  | _, _ => []

/-- The lengths of a feature. -/
def Feature.lengths (f : Feature) : List Scalar :=
  f.entries.flatMap fun e => e.type.lengths e.value

def Point2.mapLengths (g : Scalar → Scalar) (p : Point2) : Point2 := ⟨g p.x, g p.y⟩

def Point3.mapLengths (g : Scalar → Scalar) (p : Point3) : Point3 := ⟨g p.x, g p.y, g p.z⟩

def Depth.mapLengths (g : Scalar → Scalar) : Depth → Depth
  | throughAll => throughAll
  | distance s => distance (g s)

def Profile.mapLengths (g : Scalar → Scalar) : Profile → Profile
  | rectangle width height center => rectangle (g width) (g height) (center.mapLengths g)
  | circle radius center => circle (g radius) (center.mapLengths g)
  | polygon sides radius center rotation =>
    polygon sides (g radius) (center.mapLengths g) rotation
  | ref name => ref name

def NamedProfile.mapLengths (g : Scalar → Scalar) (p : NamedProfile) : NamedProfile :=
  ⟨p.name, p.profile.mapLengths g⟩

/-- A value with other lengths. -/
def SlotType.mapLengths (g : Scalar → Scalar) : (t : SlotType) → t.Value → t.Value
  | .length, v => g v
  | .size, v => g v
  | .point2, v => Point2.mapLengths g v
  | .point3, v => Point3.mapLengths g v
  | .depth, v => Depth.mapLengths g v
  | .profile, v => Profile.mapLengths g v
  | .sections, v => List.map (Profile.mapLengths g) v
  | .declarations, v => List.map (NamedProfile.mapLengths g) v
  | _, v => v

/-- A feature with other lengths. -/
def Feature.mapLengths (g : Scalar → Scalar) (f : Feature) : Feature :=
  ⟨f.id, f.deps, f.tags, f.kind,
    Payload.mapM (m := Id) (fun _ => SlotType.mapLengths g) f.kind.slots f.payload⟩

-- ============================================================ normal forms

/-- All lengths in a list are replaced by what comes to the same. -/
def SameLengths (table : ParamTable) (g : Scalar → Scalar) (lengths : List Scalar) : Prop :=
  ∀ s ∈ lengths, (g s).eval table .length = s.eval table .length

theorem sameLengths_cons {table : ParamTable} {g : Scalar → Scalar} {s : Scalar}
    {lengths : List Scalar} : SameLengths table g (s :: lengths)
      ↔ (g s).eval table .length = s.eval table .length ∧ SameLengths table g lengths :=
  List.forall_mem_cons

namespace Normalizer

variable {n : Normalizer} {g : Scalar → Scalar} {s s' : Scalar}

theorem number_congr {d : Dimension} (same : s'.eval n.table d = s.eval n.table d)
    (field : String) : n.number s' d field = n.number s d field := by
  rw [number, number, ParamTable.evaluate, ParamTable.evaluate, same]

theorem length_congr (same : s'.eval n.table .length = s.eval n.table .length)
    (field : String) : n.length s' field = n.length s field := by
  rw [length, length, number_congr same]

theorem size_congr (same : s'.eval n.table .length = s.eval n.table .length)
    (field : String) : n.size s' field = n.size s field := by
  rw [size, size, number_congr same]

theorem point2_mapLengths {p : Point2} (same : SameLengths n.table g p.scalars) (field : String) :
    n.point2 (p.mapLengths g) field = n.point2 p field := by
  obtain ⟨x, same⟩ := sameLengths_cons.1 same
  obtain ⟨y, -⟩ := sameLengths_cons.1 same
  rw [point2, point2, Point2.mapLengths, length_congr x, length_congr y]

theorem point3_mapLengths {p : Point3} (same : SameLengths n.table g p.scalars) (field : String) :
    n.point3 (p.mapLengths g) field = n.point3 p field := by
  obtain ⟨x, same⟩ := sameLengths_cons.1 same
  obtain ⟨y, same⟩ := sameLengths_cons.1 same
  obtain ⟨z, -⟩ := sameLengths_cons.1 same
  rw [point3, point3, Point3.mapLengths, length_congr x, length_congr y, length_congr z]

theorem depth_mapLengths {d : Depth} (same : SameLengths n.table g d.scalars) (field : String) :
    n.depth (d.mapLengths g) field = n.depth d field := by
  cases d with
  | throughAll => rfl
  | distance s => rw [Depth.mapLengths, depth, depth, size_congr (sameLengths_cons.1 same).1]

theorem profile_mapLengths {p : Profile} (same : SameLengths n.table g p.lengths)
    (refAllowed : Bool) (field : String) :
    n.profile refAllowed (p.mapLengths g) field = n.profile refAllowed p field := by
  cases p with
  | rectangle width height center =>
    obtain ⟨w, same⟩ := sameLengths_cons.1 same
    obtain ⟨h, c⟩ := sameLengths_cons.1 same
    rw [Profile.mapLengths, profile, profile, size_congr w, size_congr h, point2_mapLengths c]
  | circle radius center =>
    obtain ⟨r, c⟩ := sameLengths_cons.1 same
    rw [Profile.mapLengths, profile, profile, size_congr r, point2_mapLengths c]
  | polygon sides radius center rotation =>
    obtain ⟨r, c⟩ := sameLengths_cons.1 same
    rw [Profile.mapLengths, profile, profile, size_congr r, point2_mapLengths c]
  | ref name => rfl

theorem sections_mapLengths {ps : List Profile}
    (same : SameLengths n.table g (ps.flatMap Profile.lengths)) (field : String) :
    n.sections (ps.map (Profile.mapLengths g)) field = n.sections ps field := by
  rw [sections, sections, List.length_map, List.zipIdx_map, List.mapM_map]
  have each : ∀ p ∈ ps.zipIdx,
      n.profile true (p.1.mapLengths g) (field ++ "[" ++ toString p.2 ++ "]")
        = n.profile true p.1 (field ++ "[" ++ toString p.2 ++ "]") := by
    intro p hp
    have listed : p.1 ∈ ps := List.fst_mem_of_mem_zipIdx hp
    exact profile_mapLengths (fun s hs => same s (List.mem_flatMap.2 ⟨p.1, listed, hs⟩)) true _
  congr 1
  exact Checked.mapM_congr each

theorem declarations_mapLengths {ps : List NamedProfile}
    (same : SameLengths n.table g (ps.flatMap fun p => p.profile.lengths)) (field : String) :
    n.declarations (ps.map (NamedProfile.mapLengths g)) field = n.declarations ps field := by
  rw [declarations, declarations, List.mapM_map]
  refine Checked.mapM_congr fun p hp => ?_
  have profile := profile_mapLengths (fun s hs => same s (List.mem_flatMap.2 ⟨p, hp, hs⟩)) false
    (field ++ "." ++ p.name)
  rw [Function.comp_apply, NamedProfile.mapLengths, profile]

theorem slot_mapLengths {t : SlotType} {v : t.Value} (same : SameLengths n.table g (t.lengths v))
    (field : String) : n.slot field t (t.mapLengths g v) = n.slot field t v := by
  cases t with
  | length => exact length_congr (sameLengths_cons.1 same).1 field
  | size => exact size_congr (sameLengths_cons.1 same).1 field
  | point2 => exact point2_mapLengths same field
  | point3 => exact point3_mapLengths same field
  | depth => exact depth_mapLengths same field
  | profile => exact profile_mapLengths same true field
  | sections => exact sections_mapLengths same field
  | declarations => exact declarations_mapLengths same field
  | _ => rfl

end Normalizer

/-- A feature with other lengths that come to the same has the same normal form, or is
refused for the same reason. -/
theorem Feature.normal_mapLengths {table : ParamTable} {g : Scalar → Scalar} {f : Feature}
    (same : SameLengths table g f.lengths) : (f.mapLengths g).normal table = f.normal table := by
  rw [normal, normal]
  show (Payload.mapM (Normalizer.slot ⟨table, f.id⟩) f.kind.slots (Payload.mapM (m := Id) _ _ _)
    >>= _) = _
  rw [Payload.mapM_mapM_id]
  refine congrArg (· >>= _) (Payload.mapM_congr f.payload fun e he => ?_)
  exact Normalizer.slot_mapLengths (n := ⟨table, f.id⟩)
    (fun s hs => same s (List.mem_flatMap.2 ⟨e, he, hs⟩)) e.name

end PartPlan
