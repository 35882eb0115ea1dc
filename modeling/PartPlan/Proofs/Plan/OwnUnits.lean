/-
Parts with lengths in their own unit. Where the unit system of a part keeps them, they
can be written as bare numbers: the features then have the same normal forms, and the
part has the same plan or fails with the same error (`Part.compile_bare`). Where it does
not, a length comes to another number than its bare number does, or to none
(`Normalizer.length_own`).

Not every length is kept. In inches 1.9 comes to the next number, and in centimetres
1e308 is refused as not finite, although both are accepted without their unit.
-/
import PartPlan.Proofs.Feature.Lengths
import PartPlan.Proofs.Params.Acceptance
import PartPlan.Proofs.Plan.Coherence
import PartPlan.Proofs.Scalar.OwnUnit

namespace PartPlan

open Number (magnitude exponent limit)

variable {u : UnitSystem} {name : String} {x : Float} {table : ParamTable}
  {overrides : Overrides} {options : Options}

-- ============================================================ definitions

namespace ParamDef

/-- A definition with bare numbers for its lengths in a unit system. -/
def bare (u : UnitSystem) (d : ParamDef) : ParamDef :=
  if d.dimension = .length then { d with value := d.value.bare u } else d

/-- All lengths of a definition that are in a unit system are kept by it. -/
def Kept (u : UnitSystem) (d : ParamDef) : Prop := d.dimension = .length → d.value.Kept u

theorem define_bare {d : ParamDef} (units : table.units = u) (kept : d.Kept u) :
    ParamTable.define overrides table (d.bare u) = ParamTable.define overrides table d := by
  subst units
  rw [bare]
  split
  · next length =>
    obtain ⟨id, dimension, value⟩ := d
    obtain rfl : dimension = .length := length
    have resolved : (⟨id, .length, value.bare table.units⟩ : ParamDef).resolve overrides table
        = (⟨id, .length, value⟩ : ParamDef).resolve overrides table := by
      simp only [resolve, ParamTable.evaluate, Scalar.eval_bare (kept rfl), reduceCtorEq, false_and]
    rw [ParamTable.define, ParamTable.define, resolved]
  · rfl

theorem foldlM_bare {defs : List ParamDef} (units : table.units = u)
    (kept : ∀ d ∈ defs, d.Kept u) :
    (defs.map (bare u)).foldlM (ParamTable.define overrides) table
      = defs.foldlM (ParamTable.define overrides) table := by
  -- what is kept from one definition to the next is the unit system of the table
  induction defs generalizing table with
  | nil => rfl
  | cons d defs ih =>
    obtain ⟨here, kept⟩ := List.forall_mem_cons.1 kept
    rw [List.map_cons, List.foldlM_cons, List.foldlM_cons, define_bare units here]
    cases defined : ParamTable.define overrides table d with
    | error e => rfl
    | ok next =>
      obtain ⟨-, -, rfl⟩ := ParamTable.exists_of_define defined
      exact ih units kept

theorem build_bare {defs : List ParamDef} (kept : ∀ d ∈ defs, d.Kept u) :
    ParamTable.build (defs.map (bare u)) overrides u = ParamTable.build defs overrides u := by
  have units : (ParamTable.empty u).units = u := rfl
  rw [ParamTable.build, ParamTable.build, foldlM_bare units kept]

end ParamDef

-- ================================================================ features

namespace Feature

/-- A feature with bare numbers for the lengths in a unit system. -/
def bare (u : UnitSystem) (f : Feature) : Feature := f.mapLengths (Scalar.bare u)

/-- All lengths of a feature that are in a unit system are kept by it. -/
def Kept (u : UnitSystem) (f : Feature) : Prop := ∀ s ∈ f.lengths, s.Kept u

theorem normal_bare {f : Feature} (units : table.units = u) (kept : f.Kept u) :
    (f.bare u).normal table = f.normal table := by
  subst units
  exact normal_mapLengths fun s hs => Scalar.eval_bare (kept s hs)

end Feature

/-- Where any length may stand, one in the unit of the part is taken as its bare number
exactly if it is kept. -/
theorem Normalizer.length_own {n : Normalizer}
    (own : LiteralUnit.ofName? name = some (.length n.table.units)) (finite : x.isFinite = true)
    (field : String) :
    n.length (.literal x (some name)) field = n.length (.value x) field
      ↔ n.table.units.Keeps x := by
  refine ⟨fun same => ?_, fun kept => length_congr ((Scalar.eval_literal_own own finite).2 kept) _⟩
  have bare : n.length (.value x) field = .ok (.value x) :=
    Checked.bind_eq_ok.2 ⟨x, ParamTable.evaluate_eq_ok.2 ⟨rfl, finite⟩, rfl⟩
  rw [bare] at same
  obtain ⟨y, number, same⟩ := Checked.bind_eq_ok.1 same
  obtain rfl : y = x := Scalar.value.inj (Except.ok.inj same)
  exact (Scalar.eval_literal_own own finite).1 (ParamTable.evaluate_eq_ok.1 number).1

namespace Part

variable {p : Part}

/-- A part with bare numbers for its lengths in a unit system. -/
def bare (u : UnitSystem) (p : Part) : Part :=
  { p with params := p.params.map (ParamDef.bare u), features := p.features.map (Feature.bare u) }

/-- All lengths of a part that are in a unit system are kept by it. -/
structure Kept (u : UnitSystem) (p : Part) : Prop where
  params : ∀ d ∈ p.params, d.Kept u
  features : ∀ f ∈ p.features, f.Kept u

theorem normalFeatures_bare {features : List Feature} (units : table.units = u)
    (kept : ∀ f ∈ features, f.Kept u) :
    normalFeatures table (features.map (Feature.bare u)) = normalFeatures table features := by
  rw [normalFeatures, normalFeatures, List.zipIdx_map, List.mapM_map]
  refine Checked.mapM_congr fun p hp => ?_
  have same := Feature.normal_bare units (kept p.1 (List.fst_mem_of_mem_zipIdx hp))
  show (if Text.isBlankText p.1.id then _ else (p.1.bare u).normal table) = _
  rw [same]
  rfl

/-- Lengths in the unit of a part that are kept can be written as bare numbers. -/
theorem compile_bare (units : p.effectiveUnits options = u) (kept : p.Kept u) :
    (p.bare u).compile overrides options = p.compile overrides options := by
  subst units
  have normal : (p.bare (p.effectiveUnits options)).normal overrides options
      = p.normal overrides options := by
    have built : ParamTable.build (p.bare (p.effectiveUnits options)).params overrides
          (p.effectiveUnits options)
        = ParamTable.build p.params overrides (p.effectiveUnits options) :=
      ParamDef.build_bare kept.params
    show (ParamTable.build _ overrides (p.effectiveUnits options) >>= _)
      = (ParamTable.build p.params overrides (p.effectiveUnits options) >>= _)
    rw [built]
    cases built : ParamTable.build p.params overrides (p.effectiveUnits options) with
    | error e => rfl
    | ok table =>
      have same := normalFeatures_bare (ParamTable.units_of_build built) kept.features
      show (normalFeatures table (p.features.map _) >>= _) = _
      rw [same]
      rfl
  rw [compile, compile, normal]

end Part

/-- What becomes of a length in the unit of the part. It has a number, finite exactly if
its millimetres are not too large, and that is the number it was written as exactly if
the unit keeps it, as millimetres keep every number and any unit one whose millimetres
are a number or have fine enough places; while without a unit a number is as it was, as
it is in degrees for an angle. A length that is kept, and no other, is taken as its bare
number. So where all are kept, a feature has the same normal form with bare numbers for
them and a part the same plan, or they are refused for the same reason. -/
theorem lengths_in_own_unit (u : UnitSystem) {name : String}
    (own : LiteralUnit.ofName? name = some (.length u)) {x : Float} (finite : x.isFinite = true) :
    (∃ y, convert x (some name) .length u = .ok y ∧ (y = x ↔ u.Keeps x)
      ∧ (y.isFinite = true ↔ magnitude x * magnitude u.millimetres < limit))
    ∧ (u = .mm → u.Keeps x)
    ∧ (∀ y : Float, y.isFinite = true → magnitude y = magnitude x * magnitude u.millimetres →
      u.Keeps x)
    ∧ (magnitude x * magnitude u.millimetres < limit →
      (2 : ℚ) ^ exponent (x * u.millimetres) < magnitude u.millimetres * 2 ^ exponent x →
      u.Keeps x)
    ∧ (∀ d, convert x none d u = .ok x)
    ∧ (∀ degrees, LiteralUnit.ofName? degrees = some .degrees →
      convert x (some degrees) .angle u = .ok x)
    ∧ (∀ (n : Normalizer) (field : String), n.table.units = u →
      (n.length (.literal x (some name)) field = n.length (.value x) field ↔ u.Keeps x))
    ∧ (∀ (table : ParamTable) (f : Feature), table.units = u → f.Kept u →
      (f.bare u).normal table = f.normal table)
    ∧ ∀ (p : Part) (overrides : Overrides) (options : Options), p.effectiveUnits options = u →
      p.Kept u → (p.bare u).compile overrides options = p.compile overrides options := by
  refine ⟨convert_own own finite, ?_, fun y hy => UnitSystem.keeps_of_exact finite hy,
    UnitSystem.keeps_of_fine finite, fun _ => rfl, fun degrees named => ?_, ?_,
    fun _ _ => Feature.normal_bare, fun _ _ _ => Part.compile_bare⟩
  · rintro rfl
    exact UnitSystem.keeps_mm finite
  · rw [convert_of_unit named]
    rfl
  · rintro n field rfl
    exact Normalizer.length_own own finite field

-- ================================================================== a rod

/-- A round rod, measured in inches. -/
def rod (radius depth : Scalar) : Part where
  id := "rod"
  units := some .inch
  params := []
  features := [⟨"rod", [], [], .extrude,
    (.circle radius .origin, .distance depth, none, "body:rod", none, ())⟩]
  constraints := []
  assertions := []
  fti := none

namespace rod

/-- A length in inches. -/
def inches (x : Float) : Scalar := .literal x (some "in")

theorem kept {x y : Float} (hx : x.isFinite = true) (hy : y.isFinite = true)
    (keepsX : UnitSystem.inch.Keeps x) (keepsY : UnitSystem.inch.Keeps y) :
    (rod (inches x) (inches y)).Kept .inch where
  params := fun _ listed => absurd listed List.not_mem_nil
  features := by
    have lengths : ∀ s ∈ [inches x, .value 0, .value 0, inches y], s.Kept .inch := by
      simp only [List.forall_mem_cons]
      exact ⟨Scalar.kept_literal hx keepsX, Scalar.kept_value, Scalar.kept_value,
        Scalar.kept_literal hy keepsY, List.forall_mem_nil _⟩
    exact List.forall_mem_singleton.2 lengths

/-- A rod of bare numbers has a plan, in which they stand as they are. -/
theorem exists_plan : ∃ plan, (rod (.value 2.5) (.value 0.5)).compile .empty .standard = .ok plan
    ∧ plan.features = (rod (.value 2.5) (.value 0.5)).features := by
  obtain ⟨table, normal⟩ : ∃ table,
      (rod (.value 2.5) (.value 0.5)).normal .empty .standard
        = .ok ⟨"rod", .inch, table, (rod (.value 2.5) (.value 0.5)).features, []⟩ := ⟨_, rfl⟩
  have built : Graph.build (rod (.value 2.5) (.value 0.5)).features = .ok ⟨["rod"], []⟩ := rfl
  have ordered : (⟨["rod"], []⟩ : Graph).order = .ok ["rod"] := by decide +kernel
  exact ⟨_, Part.compile_of_order normal built ordered, rfl⟩

/-- Two and a half inches and half an inch are kept: a rod of them has the plan of the
rod that is written in bare numbers. -/
theorem compile_in_inches :
    LiteralUnit.ofName? "in" = some (.length .inch) ∧ (2.5 : Float).isFinite = true
    ∧ convert 2.5 (some "in") .length .inch = .ok 2.5
    ∧ ∃ plan, (rod (inches 2.5) (inches 0.5)).compile .empty .standard = .ok plan
      ∧ plan.features = (rod (.value 2.5) (.value 0.5)).features := by
  have own : LiteralUnit.ofName? "in" = some (.length .inch) := LiteralUnit.ofName?_name .inch
  have finite : (2.5 : Float).isFinite = true := by decide
  have keeps : UnitSystem.inch.Keeps 2.5 := (UnitSystem.keeps_iff finite).2 (by decide +kernel)
  have half : UnitSystem.inch.Keeps 0.5 := (UnitSystem.keeps_iff (by decide)).2 (by decide +kernel)
  obtain ⟨⟨y, converted, same, -⟩, -, -, -, -, -, -, -, plans⟩ :=
    lengths_in_own_unit .inch own finite
  obtain rfl := same.2 keeps
  obtain ⟨plan, compiled, features⟩ := exists_plan
  have bare := plans _ .empty .standard rfl (kept finite (by decide) keeps half)
  exact ⟨own, finite, converted, plan, bare.symm.trans compiled, features⟩

/-- Not every length is kept. In inches 1.9 becomes the next number, and in centimetres
1e308 is refused as not finite, although the bare number is accepted. -/
theorem not_all_kept :
    convert 1.9 (some UnitSystem.inch.name) .length .inch = .ok 1.9000000000000001
    ∧ (1.9000000000000001 : Float) ≠ 1.9
    ∧ (ParamTable.empty .cm).evaluate (.literal 1e308 (some UnitSystem.cm.name)) .length "rod.depth"
      = .error (.nonFinite "rod.depth")
    ∧ (ParamTable.empty .cm).evaluate (.value 1e308) .length "rod.depth" = .ok 1e308 := by
  decide +kernel

end rod
end PartPlan
