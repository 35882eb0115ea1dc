/-
One part, compiled with two sets of overrides and options. What a feature
declares and refers to does not depend on numbers, so both runs come to one graph
and one order. And where a feature depends on no parameter that has another
override, its scalars are the same numbers in both runs, and so it has one normal
form and one hash.
-/
import PartPlan.Proofs.Feature.Scalars
import PartPlan.Proofs.Params.Dependence
import PartPlan.Proofs.Plan.Stages

namespace PartPlan

/-- The normal forms of a feature for two tables have the same interface. -/
theorem Feature.sameInterface_evaluated (f : Feature) (table table' : ParamTable) :
    (f.evaluated table).SameInterface (f.evaluated table') where
  id := by rw [id_evaluated, id_evaluated]
  isPattern := by rw [isPattern_evaluated, isPattern_evaluated]
  profiles := by rw [declaredProfiles_evaluated, declaredProfiles_evaluated]
  outputs := by rw [outputs_evaluated, outputs_evaluated]
  deps := by rw [deps_evaluated, deps_evaluated]
  references := by
    unfold references
    rw [deps_evaluated, deps_evaluated, profileRefs_evaluated, profileRefs_evaluated,
      patternRef?_evaluated, patternRef?_evaluated, selectorSlots_evaluated,
      selectorSlots_evaluated]

/-- The graph of normal forms does not depend on the table. -/
theorem Graph.build_evaluated (features : List Feature) (table table' : ParamTable) :
    build (features.map (Feature.evaluated table))
      = build (features.map (Feature.evaluated table')) := by
  refine build_congr (List.forall₂_map_left_iff.2 (List.forall₂_map_right_iff.2 ?_))
  exact List.forall₂_same.2 fun f _ => f.sameInterface_evaluated table table'

/-- A feature whose scalars are not affected by other overrides has the same
normal form. -/
theorem Feature.evaluated_eq_of_unaffected {defs : List ParamDef}
    {overrides overrides' : Overrides} {table table' : ParamTable}
    (alike : ParamTable.Alike defs overrides overrides' table table') {f : Feature}
    (unaffected : ∀ s ∈ f.scalars, s.Unaffected defs overrides overrides') :
    f.evaluated table = f.evaluated table' := by
  refine Feature.evaluated_congr fun s hs d => ?_
  unfold Scalar.evaluated Scalar.number
  rw [alike.eval_eq (unaffected s hs) d]

/-- Whatever the overrides and options are with which a part compiles, it has
the same graph and the same order. If the units are the same, a feature keeps
its normal form and its hash unless one of its scalars depends on a parameter
whose override is another, or is there in one run only. -/
theorem Part.compile_overrides {p : Part} {overrides overrides' : Overrides}
    {options options' : Options} {plan plan' : BuildPlan}
    (h : p.compile overrides options = .ok plan) (h' : p.compile overrides' options' = .ok plan') :
    plan.graph = plan'.graph ∧ plan.order = plan'.order
      ∧ (p.effectiveUnits options = p.effectiveUnits options' →
        ∀ f ∈ p.features, (∀ s ∈ f.scalars, s.Unaffected p.params overrides overrides') →
          ∃ g, plan.feature? f.id = some g ∧ plan'.feature? f.id = some g
            ∧ plan.hashes.find? f.id = some g.hash ∧ plan'.hashes.find? f.id = some g.hash) := by
  obtain ⟨table, h⟩ := stages_of_compile h
  obtain ⟨table', h'⟩ := stages_of_compile h'
  have graphs : plan.graph = plan'.graph := by
    have built := h.graph
    rw [Graph.build_evaluated p.features table table', h'.graph] at built
    exact (Except.ok.inj built).symm
  have orders : plan.order = plan'.order := by
    have ordered := h.order
    rw [graphs, h'.order] at ordered
    exact (Except.ok.inj ordered).symm
  refine ⟨graphs, orders, fun units f hf unaffected => ?_⟩
  have params := h.params
  rw [units] at params
  have same := Feature.evaluated_eq_of_unaffected (ParamTable.alike_of_build params h'.params)
    unaffected
  refine ⟨f.evaluated table, h.feature?_id hf, ?_, h.hash?_id hf, ?_⟩
  · rw [same]
    exact h'.feature?_id hf
  · rw [same]
    exact h'.hash?_id hf

/-- The width is not what the hole of a drilled plate depends on. -/
theorem drilledPlate.exists_unaffected : ∃ hole ∈ drilledPlate.features, hole.id = "hole"
    ∧ ∀ s ∈ hole.scalars,
      s.Unaffected drilledPlate.params .empty (.ofList [("width", 50)]) := by
  obtain ⟨hole, declared, id, scalars⟩ : ∃ hole ∈ drilledPlate.features, hole.id = "hole"
      ∧ hole.scalars = [.value 0, .value 0, .param "bore"] := ⟨_, List.mem_cons_self, rfl, rfl⟩
  refine ⟨hole, declared, id, fun s hs x depends => ?_⟩
  have closed : ∀ d ∈ drilledPlate.params, d.id ∈ ["bore", "height"] →
      d.value.params ⊆ ["bore", "height"] := by decide
  have stand : ∀ s ∈ [Scalar.value 0, .value 0, .param "bore"], s.params ⊆ ["bore", "height"] := by
    decide
  have member := depends.mem_of_closed closed (stand s (scalars ▸ hs))
  rcases List.mem_pair.1 member with rfl | rfl
  · rfl
  · rfl

/-- A drilled plate as it is and one that is wider have the same hole. -/
theorem drilledPlate.wider_compile : ∃ hole ∈ drilledPlate.features,
    drilledPlate.compile .empty .standard = .ok (drilledPlate.plan 40)
      ∧ drilledPlate.compile (.ofList [("width", 50)]) .standard = .ok (drilledPlate.plan 50)
      ∧ (∀ s ∈ hole.scalars, s.Unaffected drilledPlate.params .empty (.ofList [("width", 50)]))
      ∧ (drilledPlate.plan 40).graph = (drilledPlate.plan 50).graph
      ∧ (drilledPlate.plan 40).order = (drilledPlate.plan 50).order
      ∧ ∃ g, (drilledPlate.plan 40).feature? "hole" = some g
        ∧ (drilledPlate.plan 50).feature? "hole" = some g
        ∧ (drilledPlate.plan 40).hashes.find? "hole" = some g.hash
        ∧ (drilledPlate.plan 50).hashes.find? "hole" = some g.hash := by
  have compiled := drilledPlate.compile_standard
  have wider : drilledPlate.compile (.ofList [("width", 50)]) .standard
      = .ok (drilledPlate.plan 50) := drilledPlate.compile_eq ⟨_, rfl⟩
  obtain ⟨hole, declared, id, unaffected⟩ := drilledPlate.exists_unaffected
  obtain ⟨graphs, orders, kept⟩ := Part.compile_overrides compiled wider
  have same := kept rfl hole declared unaffected
  rw [id] at same
  exact ⟨hole, declared, compiled, wider, unaffected, graphs, orders, same⟩

end PartPlan
