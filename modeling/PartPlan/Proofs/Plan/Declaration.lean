/-
Declaring the features of a part in another order. Validity is a matter of each
feature, and what the references need and the edges they make are a matter of
which features there are; whether the edges go in circles does not depend on
where the nodes are declared. So the order of declaration decides about nothing
but the order of the plan, and which features are first to be found in a cycle.
-/
import PartPlan.Proofs.Plan.Stages

namespace PartPlan

/-- A part with other features. -/
def Part.declaring (p : Part) (features : List Feature) : Part := { p with features := features }

/-- A part comes as far as its graph, and then a cycle is reported. -/
def Part.Cyclic (p : Part) (overrides : Overrides) (options : Options) : Prop :=
  ∃ n graph vs, p.normal overrides options = .ok n ∧ Graph.build n.features = .ok graph
    ∧ graph.order = .error (.cycle vs)

variable {p : Part} {overrides : Overrides} {options : Options} {table : ParamTable}
  {plan plan' : BuildPlan} {features : List Feature}

/-- Features declared in another order have a graph with the same edges, and
with a cycle if there was one. -/
theorem Graph.build_perm_acyclic {features' : List Feature} (perm : features.Perm features')
    {g : Graph} (h : build features = .ok g) :
    ∃ g', build features' = .ok g' ∧ (g'.Acyclic ↔ g.Acyclic) := by
  obtain ⟨g', h', edges⟩ := build_perm perm h
  exact ⟨g', h', acyclic_congr fun a b => edges.mem_iff⟩

namespace Part

/-- A part that compiles does so if its features are declared in another
order. -/
theorem Stages.declaring (h : p.Stages overrides options table plan)
    (perm : features.Perm p.features) :
    ∃ plan', (p.declaring features).compile overrides options = .ok plan' := by
  have valid : ∀ f ∈ (p.declaring features).features, f.Valid table :=
    fun f hf => h.valid f (perm.mem_iff.1 hf)
  obtain ⟨graph, built, same⟩ :=
    Graph.build_perm_acyclic (perm.symm.map (Feature.evaluated table)) h.graph
  have acyclic := (Graph.wellFormed_of_build h.graph).exists_order_iff.1 ⟨_, h.order⟩
  obtain ⟨order, ordered⟩ := (Graph.wellFormed_of_build built).exists_order_iff.2 (same.2 acyclic)
  obtain ⟨plan', compiled, -⟩ := exists_stages (p := p.declaring features) h.params valid built ordered
  exact ⟨plan', compiled⟩

/-- The plans of a part and of one with its features in another order hold the
same features. -/
theorem Stages.perm (h : p.Stages overrides options table plan)
    (h' : (p.declaring features).Stages overrides options table plan')
    (perm : features.Perm p.features) : plan'.features.Perm plan.features := by
  refine h'.features_perm.trans (List.Perm.trans ?_ h.features_perm.symm)
  exact perm.map (Feature.evaluated table)

/-- What a cycle is reported of: valid features with a cycle among their
references. -/
theorem cyclic_iff : p.Cyclic overrides options
    ↔ ∃ table, ParamTable.build p.params overrides (p.effectiveUnits options) = .ok table
      ∧ (∀ f ∈ p.features, f.Valid table)
      ∧ ∃ graph, Graph.build (p.features.map (Feature.evaluated table)) = .ok graph
        ∧ ¬ graph.Acyclic := by
  constructor
  · intro h
    obtain ⟨n, graph, vs, normal, built, reported⟩ := h
    obtain ⟨table, params, valid, rfl⟩ := normal_eq_ok.1 normal
    have wf := Graph.wellFormed_of_build built
    exact ⟨table, params, valid, graph, built, wf.exists_cycle_iff.1 ⟨vs, reported⟩⟩
  · intro h
    obtain ⟨table, params, valid, graph, built, cyclic⟩ := h
    obtain ⟨vs, reported⟩ := (Graph.wellFormed_of_build built).exists_cycle_iff.2 cyclic
    exact ⟨_, graph, vs, normal_eq_ok.2 ⟨table, params, valid, rfl⟩, built, reported⟩

/-- If a cycle is reported, it is also if the features are declared in another
order. -/
theorem Cyclic.declaring (h : p.Cyclic overrides options) (perm : features.Perm p.features) :
    (p.declaring features).Cyclic overrides options := by
  obtain ⟨table, params, valid, graph, built, cyclic⟩ := cyclic_iff.1 h
  obtain ⟨graph', built', same⟩ :=
    Graph.build_perm_acyclic (perm.symm.map (Feature.evaluated table)) built
  exact cyclic_iff.2 ⟨table, params, fun f hf => valid f (perm.mem_iff.1 hf), graph', built',
    mt same.1 cyclic⟩

/-- If the features of a part are declared in another order, it compiles if it
did. Both plans then have the same edges and hashes, and the same feature under
each id. And if a cycle is reported of one, it is of the other. -/
theorem compile_declaring (perm : features.Perm p.features) (overrides : Overrides)
    (options : Options) :
    ((∃ plan, p.compile overrides options = .ok plan)
        ↔ ∃ plan', (p.declaring features).compile overrides options = .ok plan')
      ∧ (∀ plan plan', p.compile overrides options = .ok plan →
        (p.declaring features).compile overrides options = .ok plan' →
        plan'.hashes = plan.hashes ∧ plan'.graph.edges.Perm plan.graph.edges
          ∧ ∀ id, plan'.feature? id = plan.feature? id)
      ∧ (p.Cyclic overrides options ↔ (p.declaring features).Cyclic overrides options) := by
  refine ⟨⟨?_, ?_⟩, ?_, fun h => h.declaring perm, fun h => h.declaring perm.symm⟩
  · intro h
    obtain ⟨plan, h⟩ := h
    obtain ⟨table, h⟩ := stages_of_compile h
    exact h.declaring perm
  · intro h
    obtain ⟨plan', h'⟩ := h
    obtain ⟨table, h'⟩ := stages_of_compile h'
    exact h'.declaring perm.symm
  · intro plan plan' h h'
    obtain ⟨table, h⟩ := stages_of_compile h
    obtain ⟨table', h'⟩ := stages_of_compile h'
    obtain rfl : table = table' := Except.ok.inj (h.params.symm.trans h'.params)
    have found : ∀ id, plan'.feature? id = plan.feature? id :=
      Feature.find?_id_perm (h.perm h' perm) h'.distinct_features
    refine ⟨SortedMap.ext_find? fun id => ?_, ?_, found⟩
    · rw [h.hash?_eq, h'.hash?_eq, found]
    · obtain ⟨graph, built, edges⟩ :=
        Graph.build_perm (perm.symm.map (Feature.evaluated table)) h.graph
      obtain rfl : graph = plan'.graph := Except.ok.inj (built.symm.trans h'.graph)
      exact edges

/-- Two frames, each on the other. -/
def entangled : Part where
  id := "entangled"
  units := none
  params := []
  features :=
    [⟨"left", [], [], .datumFrame, (.query .face [.createdBy "right"] [], ())⟩,
      ⟨"right", [], [], .datumFrame, (.query .face [.createdBy "left"] [], ())⟩]
  constraints := []
  assertions := []
  fti := none

/-- A drilled plate declared from its last feature to its first is the same, and
two entangled frames remain so. -/
theorem reverse_compile :
    (∃ plan', drilledPlate.compile .empty .standard = .ok (drilledPlate.plan 40)
        ∧ (drilledPlate.declaring drilledPlate.features.reverse).compile .empty .standard = .ok plan'
        ∧ plan'.hashes = (drilledPlate.plan 40).hashes
        ∧ plan'.graph.edges.Perm (drilledPlate.plan 40).graph.edges
        ∧ plan'.feature? "hole" = (drilledPlate.plan 40).feature? "hole")
      ∧ entangled.Cyclic .empty .standard
      ∧ (entangled.declaring entangled.features.reverse).Cyclic .empty .standard := by
  refine ⟨?_, ?_⟩
  · have compiled := drilledPlate.compile_standard
    obtain ⟨both, same, -⟩ :=
      compile_declaring (List.reverse_perm drilledPlate.features) .empty .standard
    obtain ⟨plan', reversed⟩ := both.1 ⟨_, compiled⟩
    obtain ⟨hashes, edges, found⟩ := same _ _ compiled reversed
    exact ⟨plan', compiled, reversed, hashes, edges, found "hole"⟩
  · have normal : entangled.normal .empty .standard
        = .ok ⟨"entangled", .mm, .empty .mm, entangled.features, []⟩ := rfl
    have built : Graph.build entangled.features
        = .ok ⟨["left", "right"], [⟨"right", "left"⟩, ⟨"left", "right"⟩]⟩ := rfl
    obtain ⟨vs, reported⟩ := (Graph.wellFormed_of_build built).exists_cycle_iff.2 fun acyclic => by
      refine acyclic "left" (.tail (b := "right") (.single ?_) ?_)
      · exact List.mem_cons_of_mem _ List.mem_cons_self
      · exact List.mem_cons_self
    have cyclic : entangled.Cyclic .empty .standard := ⟨_, _, vs, normal, built, reported⟩
    obtain ⟨-, -, both⟩ := compile_declaring (List.reverse_perm entangled.features) .empty .standard
    exact ⟨cyclic, both.1 cyclic⟩

end Part
end PartPlan
