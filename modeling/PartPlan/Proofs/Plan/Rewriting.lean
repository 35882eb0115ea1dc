/-
A part with overrides compiles as the part does in which every override has
taken the place of its definition: to the same plan, or to the same error.

Hence the replaced scalar is not looked at, whatever it is, and it need not even
have a value, as the ring at the end shows: its turn is defined by a parameter
that does not exist, and it compiles once the turn is given.
-/
import PartPlan.Proofs.Params.Overridden
import PartPlan.Proofs.Plan.Stages

namespace PartPlan

namespace Part

/-- A part with its overrides in the place of definitions. -/
def overridden (overrides : Overrides) (p : Part) : Part :=
  { p with params := p.params.map (ParamDef.overridden overrides) }

variable {p : Part} {overrides : Overrides} {options : Options}

/-- Of its definitions a part uses the table they come to. -/
theorem compile_congr {defs : List ParamDef} {overrides' : Overrides}
    (same : ParamTable.build defs overrides' (p.effectiveUnits options)
      = ParamTable.build p.params overrides (p.effectiveUnits options)) :
    ({ p with params := defs } : Part).compile overrides' options
      = p.compile overrides options := by
  have normal : ({ p with params := defs } : Part).normal overrides' options
      = p.normal overrides options := by
    show (ParamTable.build defs overrides' (p.effectiveUnits options) >>= _) = _
    rw [same]
    rfl
  rw [compile, compile, normal]

theorem compile_eq_overridden (fits : overrides.Fits p.params) :
    p.compile overrides options = (p.overridden overrides).compile .empty options :=
  (compile_congr (ParamTable.build_overridden fits _)).symm

/-- Overrides that are finite numbers for declared parameters are a rewrite of
the definitions: a part with them comes to the same plan or the same error as
the rewritten part without them. What they replace does not matter. After any
number of definitions a parameter that has been defined and has an override is
bound to it, and the features of the plan are evaluated for such a table. -/
theorem compile_overridden (fits : overrides.Fits p.params) :
    p.compile overrides options = (p.overridden overrides).compile .empty options
    ∧ (∀ defs, List.Forall₂ (ParamDef.Interchangeable overrides) p.params defs →
      ({ p with params := defs } : Part).compile overrides options = p.compile overrides options)
    ∧ (∀ defs table, defs <+: p.params →
      defs.foldlM (ParamTable.define overrides) (.empty (p.effectiveUnits options)) = .ok table →
        ∀ d ∈ defs, ∀ x, overrides.find? d.id = some x →
          table.values.find? d.id = some ⟨d.dimension, x⟩)
    ∧ ∀ plan, p.compile overrides options = .ok plan →
      ∃ table, p.Stages overrides options table plan
        ∧ ∀ d ∈ p.params, ∀ x, overrides.find? d.id = some x →
          table.values.find? d.id = some ⟨d.dimension, x⟩ := by
  refine ⟨compile_eq_overridden fits, fun defs h => compile_congr (ParamTable.build_interchangeable h),
    fun defs table _ folded d hd x given => ParamTable.find?_given fits.finite folded hd given,
    fun plan compiled => ?_⟩
  obtain ⟨table, stages⟩ := stages_of_compile compiled
  have folded := ParamTable.foldlM_of_build stages.params
  exact ⟨table, stages, fun d hd x given => ParamTable.find?_given fits.finite folded hd given⟩

end Part

-- ================================================================= a ring

/-- A part of a ring, swept by half a turn that is defined by some scalar. -/
def sweptRing (turn : Scalar) : Part where
  id := "ring"
  units := some .mm
  params := [⟨"turn", .angle, turn⟩, ⟨"half", .angle, .binary .div (.param "turn") (.value 2)⟩]
  features := [⟨"ring", [], [], .revolve,
    (.circle (.value 2) .origin, .sketchNormal, .angle (.param "half"), "body:ring", ())⟩]
  constraints := []
  assertions := []
  fti := none

namespace sweptRing

theorem fits : Overrides.Fits (.ofList [("turn", 90)]) (sweptRing (.param "nowhere")).params where
  finite := by
    intro id x given
    obtain ⟨p, found, rfl⟩ := Option.map_eq_some_iff.1 given
    obtain rfl := List.mem_singleton.1 (List.mem_of_find?_eq_some found)
    decide
  declared := by decide

/-- The normal form of the ring if its turn is a right angle. -/
def shaped : List Feature :=
  [⟨"ring", [], [], .revolve,
    (.circle (.value 2) .origin, .sketchNormal, .angle (.value 45), "body:ring", ())⟩]

theorem exists_plan : ∃ plan,
    (sweptRing (.param "nowhere")).compile (.ofList [("turn", 90)]) .standard = .ok plan
      ∧ plan.features = shaped := by
  obtain ⟨table, normal⟩ : ∃ table,
      (sweptRing (.param "nowhere")).normal (.ofList [("turn", 90)]) .standard
        = .ok ⟨"ring", .mm, table, shaped, []⟩ := ⟨_, rfl⟩
  have built : Graph.build shaped = .ok ⟨["ring"], []⟩ := rfl
  have ordered : (⟨["ring"], []⟩ : Graph).order = .ok ["ring"] := by decide +kernel
  exact ⟨_, Part.compile_of_order normal built ordered, rfl⟩

/-- A ring whose turn has no value compiles if the turn is given, and it compiles
as if it had been written in degrees. -/
theorem compile_given :
    (sweptRing (.param "nowhere")).compile .empty .standard
      = .error (.validation (.paramMissing "nowhere"))
    ∧ Overrides.Fits (.ofList [("turn", 90)]) (sweptRing (.param "nowhere")).params
    ∧ ∃ plan, (sweptRing (.param "nowhere")).compile (.ofList [("turn", 90)]) .standard = .ok plan
      ∧ (sweptRing (.literal 90 (some "deg"))).compile .empty .standard = .ok plan
      ∧ plan.features = shaped := by
  have rewritten : (sweptRing (.param "nowhere")).compile (.ofList [("turn", 90)]) .standard
      = (sweptRing (.literal 90 (some "deg"))).compile .empty .standard :=
    (Part.compile_overridden fits).1
  obtain ⟨plan, compiled, features⟩ := exists_plan
  exact ⟨rfl, fits, plan, compiled, rewritten ▸ compiled, features⟩

end sweptRing
end PartPlan
