/-
When a part has no build order. The edges of a graph are references between the
features it was built from, with both ends declared and no id declared twice, so
there is only one thing that ordering it can find wrong: that references go round
in a circle. And since normalization keeps the graph, this is about the features
as the author has written them.
-/
import PartPlan.Proofs.Graph.Normal
import PartPlan.Proofs.Plan.Stages

namespace PartPlan

/-- The feature `x` refers to the feature `d`; a feature may refer to itself. -/
def ReferredToBy (features : List Feature) (d x : String) : Prop :=
  ∃ f ∈ features, f.id = x ∧ RefersTo features f d

/-- No feature refers to itself, not even through others. -/
def AcyclicReferences (features : List Feature) : Prop :=
  ∀ x, ¬ Relation.TransGen (ReferredToBy features) x x

/-- Different features, each referred to by the next and the last by the first. -/
structure ReferenceCycle (features : List Feature) (vs : List String) : Prop where
  nonempty : vs ≠ []
  nodup : vs.Nodup
  declared : vs ⊆ features.map Feature.id
  steps : vs.IsChain (ReferredToBy features)
  closes : ReferredToBy features (vs.getLast nonempty) (vs.head nonempty)

namespace Graph

variable {features : List Feature} {g : Graph}

theorem hasEdge_eq_of_build (h : build features = .ok g) : g.HasEdge = ReferredToBy features :=
  funext fun _ => funext fun _ => propext (hasEdge_of_build h)

theorem acyclic_iff_of_build (h : build features = .ok g) :
    g.Acyclic ↔ AcyclicReferences features := by
  unfold Acyclic AcyclicReferences
  rw [hasEdge_eq_of_build h]

theorem IsCycle.referenceCycle (h : build features = .ok g) {vs : List String}
    (cycle : g.IsCycle vs) : ReferenceCycle features vs where
  nonempty := cycle.nonempty
  nodup := cycle.nodup
  declared := by
    rw [← nodes_of_build h]
    exact cycle.subset (wellFormed_of_build h)
  steps := List.isChain_iff_getElem.2 fun i hi => (hasEdge_of_build h).1 (cycle.steps i hi)
  closes := (hasEdge_of_build h).1 cycle.closes

/-- A graph that was built is ordered, or a cycle is reported of it. -/
theorem order_of_build (h : build features = .ok g) :
    (∃ o, g.order = .ok o) ∨ ∃ vs, g.order = .error (.cycle vs) := by
  rcases (wellFormed_of_build h).order_cases with ⟨o, ordered, -⟩ | ⟨vs, reported, -⟩
  · exact Or.inl ⟨o, ordered⟩
  · exact Or.inr ⟨vs, reported⟩

/-- The graph of normal forms is that of the features they are the normal forms
of. -/
theorem build_of_build_evaluated {table : ParamTable}
    (h : build (features.map (Feature.evaluated table)) = .ok g) : build features = .ok g := by
  have agrees := build_evaluated_agrees features table
  rw [h] at agrees
  exact Checked.mapError_eq_ok.1 agrees.symm

end Graph

namespace Part

variable {p : Part} {overrides : Overrides} {options : Options} {n : NormalPart} {graph : Graph}

/-- A part that has come as far as its graph compiles if the graph has an order. -/
theorem exists_compile_iff (normal : p.normal overrides options = .ok n)
    (built : Graph.build n.features = .ok graph) :
    (∃ plan, p.compile overrides options = .ok plan) ↔ ∃ order, graph.order = .ok order := by
  obtain ⟨table, params, valid, rfl⟩ := normal_eq_ok.1 normal
  constructor
  · intro h
    obtain ⟨plan, h⟩ := h
    obtain ⟨table', h⟩ := stages_of_compile h
    obtain rfl : table' = table := Except.ok.inj (h.params.symm.trans params)
    obtain rfl : plan.graph = graph := Except.ok.inj (h.graph.symm.trans built)
    exact ⟨plan.order, h.order⟩
  · intro h
    obtain ⟨order, ordered⟩ := h
    obtain ⟨plan, compiled, -⟩ := exists_stages params valid built ordered
    exact ⟨plan, compiled⟩

end Part

/-- A graph that was built is ordered or has a cycle reported of it; nothing else
is ever wrong with it. So a part that has come as far as its graph compiles
exactly if the references between its features go in no circle, and otherwise
such a circle is reported. -/
theorem Part.compile_fails_only_for_cycles :
    (∀ (features : List Feature) (g : Graph), Graph.build features = .ok g →
        (∃ o, g.order = .ok o) ∨ ∃ vs, g.order = .error (.cycle vs))
      ∧ ∀ (p : Part) (overrides : Overrides) (options : Options) (n : NormalPart) (graph : Graph),
        p.normal overrides options = .ok n → Graph.build n.features = .ok graph →
        ((∃ plan, p.compile overrides options = .ok plan) ↔ AcyclicReferences p.features)
          ∧ (¬ AcyclicReferences p.features →
            ∃ vs, p.compile overrides options = .error (.graph (.cycle vs))
              ∧ ReferenceCycle p.features vs) := by
  refine ⟨fun features g h => Graph.order_of_build h, ?_⟩
  intro p overrides options n graph normal built
  have wf := Graph.wellFormed_of_build built
  obtain ⟨table, params, valid, rfl⟩ := normal_eq_ok.1 normal
  have declared : Graph.build p.features = .ok graph := Graph.build_of_build_evaluated built
  refine ⟨?_, fun cyclic => ?_⟩
  · rw [exists_compile_iff normal built, wf.exists_order_iff, Graph.acyclic_iff_of_build declared]
  · rw [← Graph.acyclic_iff_of_build declared] at cyclic
    rcases wf.order_cases with ⟨o, ordered, -⟩ | ⟨vs, reported, cycle⟩
    · exact absurd (wf.exists_order_iff.1 ⟨o, ordered⟩) cyclic
    · refine ⟨vs, ?_, cycle.referenceCycle declared⟩
      exact compile_eq_cycle.2 ⟨table, graph, params, valid, built, reported⟩

/-- A sketch on a frame, a body made of a profile of the sketch, and the frame on a
face of the body that is nearest to the body. -/
def circularSketch : Part where
  id := "circular"
  units := none
  params := []
  features :=
    [⟨"sketch", [], [], .sketch,
        (some (.query .face [.createdBy "frame"] []),
          [⟨"profile:disc", .circle (.value 1) .origin⟩], ())⟩,
      ⟨"body", [], [], .extrude,
        (.ref "profile:disc", .throughAll, none, "body:disc", none, ())⟩,
      ⟨"frame", [], [], .datumFrame,
        (.query .face [.createdBy "body"] [.closestTo (.named "body:disc")], ())⟩]
  constraints := []
  assertions := []
  fti := none

/-- The graph of the circular sketch. -/
def circularSketchGraph : Graph :=
  ⟨["sketch", "body", "frame"], [⟨"frame", "sketch"⟩, ⟨"sketch", "body"⟩, ⟨"body", "frame"⟩]⟩

theorem circularSketch_reported :
    (∃ n, circularSketch.normal .empty .standard = .ok n
        ∧ Graph.build n.features = .ok circularSketchGraph
        ∧ ¬ AcyclicReferences circularSketch.features
        ∧ ∃ vs, circularSketch.compile .empty .standard = .error (.graph (.cycle vs))
          ∧ ReferenceCycle circularSketch.features vs)
      ∧ ∃ n, drilledPlate.normal .empty .standard = .ok n
        ∧ Graph.build n.features = .ok drilledPlate.graph
        ∧ AcyclicReferences drilledPlate.features := by
  obtain ⟨-, compiles⟩ := Part.compile_fails_only_for_cycles
  refine ⟨?_, ?_⟩
  · have normal : circularSketch.normal .empty .standard
        = .ok ⟨"circular", .mm, .empty .mm, circularSketch.features, []⟩ := rfl
    have built : Graph.build circularSketch.features = .ok circularSketchGraph := rfl
    have cyclic : ¬ AcyclicReferences circularSketch.features := by
      rw [← Graph.acyclic_iff_of_build built]
      intro acyclic
      have to_body : circularSketchGraph.HasEdge "sketch" "body" :=
        List.mem_cons_of_mem _ List.mem_cons_self
      have to_frame : circularSketchGraph.HasEdge "body" "frame" :=
        List.mem_cons_of_mem _ (List.mem_cons_of_mem _ List.mem_cons_self)
      have to_sketch : circularSketchGraph.HasEdge "frame" "sketch" := List.mem_cons_self
      apply acyclic "sketch"
      exact Relation.TransGen.tail (.tail (.single to_body) to_frame) to_sketch
    obtain ⟨-, reported⟩ := compiles circularSketch .empty .standard _ _ normal built
    exact ⟨_, normal, built, cyclic, reported cyclic⟩
  · have normal : ∃ table, drilledPlate.normal .empty .standard
        = .ok ⟨"drilled", .mm, table, drilledPlate.shaped 40, []⟩ := ⟨_, rfl⟩
    obtain ⟨table, normal⟩ := normal
    have built := drilledPlate.build_shaped 40
    obtain ⟨acyclic, -⟩ := compiles drilledPlate .empty .standard _ _ normal built
    exact ⟨_, normal, built, acyclic.1 ⟨_, drilledPlate.compile_standard⟩⟩

end PartPlan
