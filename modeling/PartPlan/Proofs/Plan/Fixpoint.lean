/-
What becomes of a plan that is compiled itself. All its numbers are written out
and its selectors are in normal form, so its features are their own normal
forms, for whatever parameters and in whatever units. They have the edges they
had, and they are declared in an order which the edges follow; so there is
nothing left for the sort to do, and they stay as they are.
-/
import PartPlan.Proofs.Plan.Stages

namespace PartPlan

/-- Features in the order in which they are declared are as they were. -/
theorem Feature.inOrder_map_id {features : List Feature}
    (distinct : (features.map Feature.id).Nodup) :
    inOrder (features.map Feature.id) features = features := by
  unfold inOrder
  rw [List.filterMap_map]
  have found : ∀ f ∈ features, features.find? (·.id == f.id) = some f :=
    fun f hf => (find?_id distinct).2 ⟨hf, rfl⟩
  exact (List.filterMap_congr found).trans List.filterMap_some

namespace Part.Stages

variable {p : Part} {overrides : Overrides} {options : Options} {table : ParamTable}
  {plan : BuildPlan} (h : p.Stages overrides options table plan)
include h

theorem exists_of_mem {g : Feature} (hg : g ∈ plan.features) :
    ∃ f ∈ p.features, f.evaluated table = g :=
  List.mem_map.1 (h.features_perm.mem_iff.1 hg)

/-- The features of a plan are valid for all parameters. -/
theorem valid_features (table' : ParamTable) : ∀ g ∈ plan.features, g.Valid table' := by
  intro g hg
  obtain ⟨f, hf, rfl⟩ := h.exists_of_mem hg
  exact (h.valid f hf).evaluated

/-- The features of a plan are their own normal forms. -/
theorem map_evaluated_features (table' : ParamTable) :
    plan.features.map (Feature.evaluated table') = plan.features := by
  have fixed : ∀ g ∈ plan.features, g.evaluated table' = g := by
    intro g hg
    obtain ⟨f, -, rfl⟩ := h.exists_of_mem hg
    exact f.evaluated_evaluated table table'
  exact (List.map_congr_left fixed).trans (List.map_id _)

/-- The graph of the features of a plan has the edges of the plan, and its
nodes are in an order which the edges follow. -/
theorem exists_build : ∃ graph, Graph.build plan.features = .ok graph
    ∧ graph.nodes = plan.order ∧ graph.edges.Perm plan.graph.edges ∧ graph.order = .ok plan.order := by
  obtain ⟨graph, built, edges⟩ := Graph.build_perm h.features_perm.symm h.graph
  have nodes : graph.nodes = plan.order := (Graph.nodes_of_build built).trans h.map_id
  refine ⟨graph, built, nodes, edges, ?_⟩
  obtain ⟨wf, greedy, perm⟩ := Graph.order_eq_ok.1 h.order
  rw [← nodes]
  -- edges point forward in the order of the plan, which is now that of declaration
  refine Graph.order_eq_nodes (Graph.wellFormed_of_build built) fun a b edge => ?_
  have edge' : plan.graph.HasEdge a b := edges.mem_iff.1 edge
  rw [nodes]
  exact greedy.forward (perm.mem_iff.2 (wf.ends edge').2) edge'

end Part.Stages

/-- A feature in normal form is its own normal form. And if the features of a
plan are declared as they stand there, in any part whose parameters can be
evaluated, they compile to a plan with the same order, features, hashes and
edges. -/
theorem Part.compile_features_of_plan :
    (∀ (f g : Feature) (table table' : ParamTable), f.normal table = .ok g →
        g.normal table' = .ok g)
      ∧ ∀ (p q : Part) (overrides overrides' : Overrides) (options options' : Options)
        (plan : BuildPlan) (table' : ParamTable), p.compile overrides options = .ok plan →
        q.features = plan.features →
        ParamTable.build q.params overrides' (q.effectiveUnits options') = .ok table' →
        ∃ plan', q.compile overrides' options' = .ok plan' ∧ plan'.order = plan.order
          ∧ plan'.features = plan.features ∧ plan'.hashes = plan.hashes
          ∧ plan'.graph.nodes = plan.order ∧ plan'.graph.edges.Perm plan.graph.edges := by
  refine ⟨fun f g table table' normal => Feature.normal_normal normal, ?_⟩
  intro p q overrides overrides' options options' plan table' compiled features params
  obtain ⟨table, h⟩ := Part.stages_of_compile compiled
  have fixed : q.features.map (Feature.evaluated table') = plan.features := by
    rw [features]
    exact h.map_evaluated_features table'
  have valid : ∀ g ∈ q.features, g.Valid table' := by
    rw [features]
    exact h.valid_features table'
  obtain ⟨graph, built, nodes, edges, ordered⟩ := h.exists_build
  rw [← fixed] at built
  obtain ⟨plan', again, h', rfl, order⟩ := Part.exists_stages params valid built ordered
  have same : plan'.features = plan.features := by
    rw [h'.features, order, fixed, ← h.map_id]
    exact Feature.inOrder_map_id h.distinct_features
  refine ⟨plan', again, order, same, ?_, nodes, edges⟩
  rw [h'.hashes, h.hashes, same]

/-- The features of the plan of a drilled plate as a part that is measured in
inches and has another parameter. -/
def drilledPlate.again : Part where
  id := "again"
  units := some .inch
  params := [⟨"tilt", .angle, .literal 90 (some "deg")⟩]
  features := (drilledPlate.plan 40).features
  constraints := []
  assertions := []
  fti := none

theorem drilledPlate.again_compile :
    (∃ hole ∈ drilledPlate.features, ∃ table g, hole.normal table = .ok g
        ∧ g ∈ (drilledPlate.plan 40).features ∧ g.normal (.empty .inch) = .ok g)
      ∧ ∃ table plan', drilledPlate.compile .empty .standard = .ok (drilledPlate.plan 40)
        ∧ drilledPlate.again.features = (drilledPlate.plan 40).features
        ∧ ParamTable.build drilledPlate.again.params (.ofList [("tilt", 45)])
          (drilledPlate.again.effectiveUnits .standard) = .ok table
        ∧ drilledPlate.again.compile (.ofList [("tilt", 45)]) .standard = .ok plan'
        ∧ plan'.order = ["plate", "hole", "round"]
        ∧ plan'.features = (drilledPlate.plan 40).features
        ∧ plan'.hashes = (drilledPlate.plan 40).hashes
        ∧ plan'.graph.nodes = ["plate", "hole", "round"]
        ∧ plan'.graph.edges.Perm drilledPlate.graph.edges := by
  obtain ⟨normal, again⟩ := Part.compile_features_of_plan
  refine ⟨?_, ?_⟩
  · obtain ⟨hole, declared, table, g, hg, planned⟩ : ∃ hole ∈ drilledPlate.features, ∃ table g,
        hole.normal table = .ok g ∧ g ∈ (drilledPlate.plan 40).features :=
      ⟨_, List.mem_cons_self, ⟨.mm, .ofList [("bore", ⟨.length, 10⟩)]⟩, _, rfl,
        List.mem_cons_of_mem _ List.mem_cons_self⟩
    exact ⟨hole, declared, table, g, hg, planned, normal hole g table (.empty .inch) hg⟩
  · have compiled := drilledPlate.compile_standard
    obtain ⟨table, params⟩ : ∃ table, ParamTable.build drilledPlate.again.params
        (.ofList [("tilt", 45)]) (drilledPlate.again.effectiveUnits .standard) = .ok table :=
      ⟨_, rfl⟩
    obtain ⟨plan', h⟩ := again drilledPlate drilledPlate.again .empty _ .standard .standard _ table
      compiled rfl params
    exact ⟨table, plan', compiled, rfl, params, h⟩

end PartPlan
