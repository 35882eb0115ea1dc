/-
The stages of a compilation, all in one place: parameters, valid features, the
graph of their normal forms, its order, and from these the rest of the plan.
A part compiles exactly if it comes through the stages, so whoever compares two
compilations compares them stage by stage: what a compilation has come through
is read off one (`Part.stages_of_compile`), and another is put together from its
stages (`Part.exists_stages`).

In the plan a feature and its hash are looked up by id, and what is found under
the id of a declared feature is its normal form and the hash of that.
-/
import PartPlan.Proofs.Feature.Evaluated
import PartPlan.Proofs.Graph.Related
import PartPlan.Proofs.Plan.Coherence

namespace PartPlan

-- ======================================================== look-up in lists

namespace Feature

variable {features features' : List Feature}

/-- Looking up an id does not depend on the order of the features. -/
theorem find?_id_perm (perm : features.Perm features') (distinct : (features.map Feature.id).Nodup)
    (id : String) : features.find? (·.id == id) = features'.find? (·.id == id) := by
  have distinct' := (perm.map Feature.id).nodup_iff.1 distinct
  refine Option.ext fun f => ?_
  rw [find?_id distinct, find?_id distinct', perm.mem_iff]

/-- A table of hashes says of each feature what its hash is, and nothing else. -/
theorem find?_hashTable_eq (distinct : (features.map Feature.id).Nodup) (id : String) :
    (hashTable features).find? id = (features.find? (·.id == id)).map hash := by
  by_cases known : id ∈ features.map Feature.id
  · obtain ⟨f, found, rfl⟩ := exists_find?_id known
    rw [found, find?_hashTable distinct (List.mem_of_find?_eq_some found)]
    rfl
  · have unbound : (hashTable features).contains id = false := by
      rw [Bool.eq_false_iff, ne_eq, hashTable, SortedMap.contains_ofList, map_fst_hashes]
      exact known
    have missing : features.find? (·.id == id) = none := by
      refine List.find?_eq_none.2 fun f hf same => known ?_
      rw [← eq_of_beq same]
      exact List.mem_map_of_mem hf
    rw [missing]
    simpa [SortedMap.contains] using unbound

end Feature

-- ================================================================= stages

namespace Part

/-- The normal form that a part has if its features are valid for a table. -/
def evaluated (p : Part) (options : Options) (table : ParamTable) : NormalPart :=
  ⟨p.id, p.effectiveUnits options, table, p.features.map (Feature.evaluated table),
    if options.dataOnlyDiagnostics && p.hasAnnotations then [p.annotationWarning] else []⟩

/-- What a part has come through when it compiles to a plan: its parameters are
those of `table`. -/
structure Stages (p : Part) (overrides : Overrides) (options : Options) (table : ParamTable)
    (plan : BuildPlan) : Prop where
  params : ParamTable.build p.params overrides (p.effectiveUnits options) = .ok table
  valid : ∀ f ∈ p.features, f.Valid table
  planned : (p.evaluated options table).plan = .ok plan

variable {p : Part} {overrides : Overrides} {options : Options} {table : ParamTable}
  {plan : BuildPlan}

theorem normal_eq_ok {n : NormalPart} :
    p.normal overrides options = .ok n
      ↔ ∃ table, ParamTable.build p.params overrides (p.effectiveUnits options) = .ok table
        ∧ (∀ f ∈ p.features, f.Valid table) ∧ n = p.evaluated options table := by
  refine Checked.bind_eq_ok.trans (exists_congr fun table => and_congr_right fun _ => ?_)
  exact (accepts_features table p.features).bind_ok _ n

theorem stages_of_compile (h : p.compile overrides options = .ok plan) :
    ∃ table, p.Stages overrides options table plan := by
  obtain ⟨n, normal, planned⟩ := compile_eq_ok.1 h
  obtain ⟨table, params, valid, rfl⟩ := normal_eq_ok.1 normal
  exact ⟨table, params, valid, planned⟩

/-- A part that comes through the stages compiles. -/
theorem exists_stages (params : ParamTable.build p.params overrides (p.effectiveUnits options)
      = .ok table) (valid : ∀ f ∈ p.features, f.Valid table) {graph : Graph} {order : List String}
    (built : Graph.build (p.features.map (Feature.evaluated table)) = .ok graph)
    (ordered : graph.order = .ok order) :
    ∃ plan, p.compile overrides options = .ok plan ∧ p.Stages overrides options table plan
      ∧ plan.graph = graph ∧ plan.order = order := by
  obtain ⟨plan, planned, rfl, rfl⟩ : ∃ plan, (p.evaluated options table).plan = .ok plan
      ∧ plan.graph = graph ∧ plan.order = order := by
    refine ⟨_, Checked.bind_eq_ok.2 ⟨graph, built, Checked.bind_eq_ok.2 ⟨order, ordered, rfl⟩⟩, ?_⟩
    exact ⟨rfl, rfl⟩
  have compiled := compile_eq_ok.2 ⟨_, normal_eq_ok.2 ⟨table, params, valid, rfl⟩, planned⟩
  exact ⟨plan, compiled, ⟨params, valid, planned⟩, rfl, rfl⟩

/-- A cycle is reported of a part exactly if the normal forms of its features
have a graph of which it is. -/
theorem compile_eq_cycle {vs : List String} :
    p.compile overrides options = .error (.graph (.cycle vs))
      ↔ ∃ table graph, ParamTable.build p.params overrides (p.effectiveUnits options) = .ok table
        ∧ (∀ f ∈ p.features, f.Valid table)
        ∧ Graph.build (p.features.map (Feature.evaluated table)) = .ok graph
        ∧ graph.order = .error (.cycle vs) := by
  constructor
  · intro h
    rcases Checked.bind_eq_error.1 h with invalid | ⟨n, normal, h⟩
    · obtain ⟨e, -, e'⟩ := Checked.mapError_eq_error.1 invalid
      cases e'
    · obtain ⟨table, params, valid, rfl⟩ := normal_eq_ok.1 (Checked.mapError_eq_ok.1 normal)
      obtain ⟨e, h, same⟩ := Checked.mapError_eq_error.1 h
      cases same
      rcases Checked.bind_eq_error.1 h with unbuilt | ⟨graph, built, h⟩
      · exact absurd unbuilt (Graph.build_ne_cycle _)
      · rcases Checked.bind_eq_error.1 h with cyclic | ⟨order, -, h⟩
        · exact ⟨table, graph, params, valid, built, cyclic⟩
        · cases h
  · intro h
    obtain ⟨table, graph, params, valid, built, cyclic⟩ := h
    have normal := normal_eq_ok.2 ⟨table, params, valid, rfl⟩
    refine Checked.bind_eq_error.2 (Or.inr ⟨_, Checked.mapError_eq_ok.2 normal, ?_⟩)
    refine Checked.mapError_eq_error.2 ⟨_, ?_, rfl⟩
    refine Checked.bind_eq_error.2 (Or.inr ⟨graph, built, ?_⟩)
    exact Checked.bind_eq_error.2 (Or.inl cyclic)

namespace Stages

variable (h : p.Stages overrides options table plan)
include h

theorem graph : Graph.build (p.features.map (Feature.evaluated table)) = .ok plan.graph :=
  (NormalPart.plan_eq_ok h.planned).1

theorem order : plan.graph.order = .ok plan.order := (NormalPart.plan_eq_ok h.planned).2.1

theorem features :
    plan.features = Feature.inOrder plan.order (p.features.map (Feature.evaluated table)) :=
  (NormalPart.plan_eq_ok h.planned).2.2.1

theorem hashes : plan.hashes = Feature.hashTable plan.features :=
  (NormalPart.plan_eq_ok h.planned).2.2.2

theorem coherent : plan.Coherent p (p.evaluated options table) :=
  NormalPart.coherent_of_plan h.planned List.map_map

theorem map_id : plan.features.map Feature.id = plan.order := h.coherent.ids

theorem features_perm : plan.features.Perm (p.features.map (Feature.evaluated table)) :=
  h.coherent.features

theorem distinct_features : (plan.features.map Feature.id).Nodup := by
  have distinct := (NormalPart.wellReferenced_of_plan h.planned).ids
  exact (h.features_perm.map Feature.id).nodup_iff.2 distinct

theorem hash?_eq (id : String) : plan.hashes.find? id = (plan.feature? id).map Feature.hash := by
  rw [h.hashes]
  exact Feature.find?_hashTable_eq h.distinct_features id

/-- Under the id of a feature is its normal form. -/
theorem feature?_id {f : Feature} (hf : f ∈ p.features) :
    plan.feature? f.id = some (f.evaluated table) :=
  (Feature.find?_id h.distinct_features).2
    ⟨h.features_perm.mem_iff.2 (List.mem_map_of_mem hf), rfl⟩

theorem hash?_id {f : Feature} (hf : f ∈ p.features) :
    plan.hashes.find? f.id = some (f.evaluated table).hash := by
  rw [h.hash?_eq, h.feature?_id hf]
  rfl

end Stages
end Part

-- ============================================================== an example

/-- A plate with rounded edges and a hole half as wide as the plate is high. The
hole is declared before the plate. -/
def drilledPlate : Part where
  id := "drilled"
  units := none
  params :=
    [⟨"width", .length, .literal 4 (some "cm")⟩, ⟨"height", .length, .value 20⟩,
      ⟨"bore", .length, .binary .div (.param "height") (.value 2)⟩]
  features :=
    [⟨"hole", [], [], .hole,
      (.query .face [.createdBy "plate"] [], .origin, .param "bore", .throughAll, none, none, ())⟩,
      ⟨"plate", [], [], .extrude,
        (.rectangle (.param "width") (.param "height") .origin, .distance (.value 5), none,
          "body:plate", none, ())⟩,
      ⟨"round", [], [], .fillet, (.query .edge [.createdBy "plate"] [], .value 1, none, ())⟩]
  constraints := []
  assertions := []
  fti := none

namespace drilledPlate

/-- The normal forms of the features if the plate has some width. -/
def shaped (width : Float) : List Feature :=
  [⟨"hole", [], [], .hole,
    (.query .face [.createdBy "plate"] [], .origin, .value 10, .throughAll, none, none, ())⟩,
    ⟨"plate", [], [], .extrude,
      (.rectangle (.value width) (.value 20) .origin, .distance (.value 5), none, "body:plate",
        none, ())⟩,
    ⟨"round", [], [], .fillet, (.query .edge [.createdBy "plate"] [], .value 1, none, ())⟩]

/-- The graph, whatever the width. -/
def graph : Graph := ⟨["hole", "plate", "round"], [⟨"plate", "hole"⟩, ⟨"plate", "round"⟩]⟩

/-- The plan if the plate has some width. -/
def plan (width : Float) : BuildPlan where
  partId := "drilled"
  units := .mm
  order := ["plate", "hole", "round"]
  graph := graph
  features := Feature.inOrder ["plate", "hole", "round"] (shaped width)
  hashes := Feature.hashTable (Feature.inOrder ["plate", "hole", "round"] (shaped width))
  diagnostics := []

theorem build_shaped (width : Float) : Graph.build (shaped width) = .ok graph := by
  have same : Graph.build (shaped width) = Graph.build (shaped 40) := Graph.build_congr
    (.cons ⟨rfl, rfl, rfl, rfl, rfl, rfl⟩ (.cons ⟨rfl, rfl, rfl, rfl, rfl, rfl⟩
      (.cons ⟨rfl, rfl, rfl, rfl, rfl, rfl⟩ .nil)))
  rw [same]
  rfl

theorem compile_eq {overrides : Overrides} {width : Float}
    (normal : ∃ table, drilledPlate.normal overrides .standard
      = .ok ⟨"drilled", .mm, table, shaped width, []⟩) :
    drilledPlate.compile overrides .standard = .ok (plan width) := by
  obtain ⟨table, normal⟩ := normal
  have ordered : graph.order = .ok ["plate", "hole", "round"] := by decide +kernel
  exact Part.compile_of_order normal (build_shaped width) ordered

/-- The plan without overrides. -/
theorem compile_standard : drilledPlate.compile .empty .standard = .ok (plan 40) :=
  compile_eq ⟨_, rfl⟩

end drilledPlate
end PartPlan
