/-
What a build plan is worth. Its features are those of the part in normal
form, one for each id of its order, each with its hash; and whatever a feature
refers to is built before it.

The order comes from a graph and the features are looked up by id afterwards,
so the argument has two halves: ids are the same in all stages, and an edge of
the graph is a reference of the feature it leads to.
-/
import PartPlan.Plan.Compile
import PartPlan.Proofs.Feature.Normal
import PartPlan.Proofs.Graph.Build
import PartPlan.Proofs.Graph.Order

namespace PartPlan

namespace Feature

variable {features : List Feature} {order : List String} {f : Feature}

-- ======================================================== look-up by id

theorem exists_find?_id {id : String} (known : id ∈ features.map Feature.id) :
    ∃ g, features.find? (·.id == id) = some g ∧ g.id = id := by
  obtain ⟨f, hf, rfl⟩ := List.mem_map.1 known
  have present : (features.find? (·.id == f.id)).isSome :=
    List.find?_isSome.2 ⟨f, hf, by simp⟩
  obtain ⟨g, found⟩ := Option.isSome_iff_exists.1 present
  exact ⟨g, found, by simpa using List.find?_some found⟩

theorem find?_id (distinct : (features.map Feature.id).Nodup) {id : String} :
    features.find? (·.id == id) = some f ↔ f ∈ features ∧ f.id = id := by
  refine ⟨?_, ?_⟩
  · intro found
    exact ⟨List.mem_of_find?_eq_some found, by simpa using List.find?_some found⟩
  · intro h
    obtain ⟨hf, rfl⟩ := h
    obtain ⟨g, found, same⟩ := exists_find?_id (List.mem_map_of_mem hf)
    rw [found, List.inj_on_of_nodup_map distinct (List.mem_of_find?_eq_some found) hf same]

/-- Features in an order of their ids have their ids in this order. -/
theorem map_id_inOrder (known : order ⊆ features.map Feature.id) :
    (inOrder order features).map Feature.id = order := by
  unfold inOrder
  induction order with
  | nil => rfl
  | cons id order ih =>
    obtain ⟨here, rest⟩ := List.cons_subset.1 known
    obtain ⟨g, found, same⟩ := exists_find?_id here
    simp only [List.filterMap_cons, found]
    rw [List.map_cons, same, ih rest]

/-- Features in an order of all their ids are the same features. -/
theorem inOrder_perm (perm : order.Perm (features.map Feature.id))
    (distinct : (features.map Feature.id).Nodup) : (inOrder order features).Perm features := by
  have ids := map_id_inOrder perm.subset
  have distinct' : ((inOrder order features).map Feature.id).Nodup := by
    rw [ids]
    exact perm.nodup_iff.2 distinct
  refine (List.perm_ext_iff_of_nodup distinct'.of_map distinct.of_map).2 fun f => ?_
  unfold inOrder
  simp only [List.mem_filterMap, find?_id distinct]
  refine ⟨?_, ?_⟩
  · intro h
    obtain ⟨_, -, hf, -⟩ := h
    exact hf
  · intro hf
    exact ⟨f.id, perm.mem_iff.2 (List.mem_map_of_mem hf), hf, rfl⟩

-- =============================================================== hashes

theorem map_fst_hashes :
    (features.map fun f => (f.id, f.hash)).map (·.1) = features.map Feature.id := by
  rw [List.map_map]
  rfl

theorem find?_hashTable (distinct : (features.map Feature.id).Nodup) (hf : f ∈ features) :
    (hashTable features).find? f.id = some f.hash := by
  refine SortedMap.find?_ofList_of_mem ?_ (List.mem_map_of_mem hf)
  rw [map_fst_hashes]
  exact distinct

theorem keys_hashTable (distinct : (features.map Feature.id).Nodup) :
    (hashTable features).keys.Perm (features.map Feature.id) := by
  have nodup := SortedMap.nodup_of_increasing (hashTable features).keys_increasing
  refine (List.perm_ext_iff_of_nodup nodup distinct).2 fun id => ?_
  rw [SortedMap.mem_keys, hashTable, SortedMap.contains_ofList, map_fst_hashes]

end Feature

/-- An order has a cache key if each of its ids has a hash. -/
theorem isSome_cacheKey? {partId backend : String} {order : List String}
    {hashes : SortedMap String} {overrides : Overrides}
    (hashed : ∀ id ∈ order, hashes.contains id = true) :
    (cacheKey? partId order hashes backend overrides).isSome := by
  have listed : (orderedHashes? order hashes).isSome := by
    unfold orderedHashes?
    induction order with
    | nil => rfl
    | cons id order ih =>
      obtain ⟨hash, found⟩ := Option.isSome_iff_exists.1 (hashed id List.mem_cons_self)
      obtain ⟨rest, h⟩ := Option.isSome_iff_exists.1
        (ih fun id hid => hashed id (List.mem_cons_of_mem _ hid))
      rw [List.mapM_cons, found, h]
      rfl
  obtain ⟨features, h⟩ := Option.isSome_iff_exists.1 listed
  unfold cacheKey?
  rw [h]
  rfl

-- ========================================================= compilation

/-- Normalization keeps the ids and their order. -/
theorem Part.map_id_normalFeatures {table : ParamTable} {features normal : List Feature}
    (h : Part.normalFeatures table features = .ok normal) :
    normal.map Feature.id = features.map Feature.id := by
  have kept : normal.map Feature.id = features.zipIdx.map (Feature.id ∘ Prod.fst) := by
    refine Checked.map_of_mapM_eq_ok h ?_
    intro p _ g hg
    obtain ⟨f, i⟩ := p
    by_cases blank : Text.isBlankText f.id = true
    · simp [blank] at hg
    · simp only [blank] at hg
      exact Feature.id_normal hg
  rw [kept, ← List.map_map, List.zipIdx_map_fst]

theorem Part.map_id_normal {p : Part} {overrides : Overrides} {options : Options}
    {n : NormalPart} (h : p.normal overrides options = .ok n) :
    n.features.map Feature.id = p.features.map Feature.id := by
  obtain ⟨table, -, h⟩ := Checked.bind_eq_ok.1 h
  obtain ⟨features, normal, h⟩ := Checked.bind_eq_ok.1 h
  obtain rfl := Except.ok.inj h
  exact Part.map_id_normalFeatures normal

theorem NormalPart.plan_eq_ok {n : NormalPart} {plan : BuildPlan} (h : n.plan = .ok plan) :
    Graph.build n.features = .ok plan.graph ∧ plan.graph.order = .ok plan.order
      ∧ plan.features = Feature.inOrder plan.order n.features
      ∧ plan.hashes = Feature.hashTable plan.features := by
  obtain ⟨graph, built, h⟩ := Checked.bind_eq_ok.1 h
  obtain ⟨order, ordered, h⟩ := Checked.bind_eq_ok.1 h
  obtain rfl := Except.ok.inj h
  exact ⟨built, ordered, rfl, rfl⟩

namespace BuildPlan

/-- A plan holds the features of a part in normal form, one for each id of
its order, and of each the hash. -/
structure Coherent (plan : BuildPlan) (p : Part) (n : NormalPart) : Prop where
  order : plan.order.Perm (p.features.map Feature.id)
  ids : plan.features.map Feature.id = plan.order
  features : plan.features.Perm n.features
  hashed : plan.hashes.keys.Perm plan.order
  hashes : ∀ f ∈ plan.features, plan.hashes.find? f.id = some f.hash
  keyed : ∀ backend overrides, (plan.cacheKey? backend overrides).isSome

/-- Whatever the features of a plan refer to is there, and is built before
them. -/
def RespectsReferences (plan : BuildPlan) : Prop :=
  ∀ (i : Nat) (f : Feature), plan.features[i]? = some f →
    (∀ r, f.Mentions r → ¬ r.IsFree → ∃ g ∈ plan.features, r.LeadsTo g)
      ∧ ∀ d, RefersTo plan.features f d → ∃ j < i, plan.order[j]? = some d

end BuildPlan

namespace NormalPart

variable {n : NormalPart} {plan : BuildPlan}

/-- The order of a plan is a greedy schedule of the graph, which has the
features for its nodes. -/
theorem order_of_plan (h : n.plan = .ok plan) :
    plan.graph.Greedy plan.order ∧ plan.order.Perm (n.features.map Feature.id) := by
  obtain ⟨built, ordered, -, -⟩ := plan_eq_ok h
  have outcome := Graph.outcome_order plan.graph
  rw [ordered] at outcome
  cases outcome with
  | ordered wf greedy perm =>
    obtain ⟨scope, edges, -, -, e⟩ := Graph.build_eq_ok.1 built
    rw [e] at perm
    exact ⟨greedy, perm⟩

theorem wellReferenced_of_plan (h : n.plan = .ok plan) : WellReferenced n.features :=
  Graph.exists_build_iff.1 ⟨_, (plan_eq_ok h).1⟩

theorem coherent_of_plan (h : n.plan = .ok plan) {p : Part}
    (ids : n.features.map Feature.id = p.features.map Feature.id) : plan.Coherent p n := by
  obtain ⟨-, perm⟩ := order_of_plan h
  obtain ⟨-, -, features, hashes⟩ := plan_eq_ok h
  have distinct := (wellReferenced_of_plan h).ids
  have in_order : plan.features.map Feature.id = plan.order := by
    rw [features]
    exact Feature.map_id_inOrder perm.subset
  have distinct' : (plan.features.map Feature.id).Nodup := by
    rw [in_order]
    exact perm.nodup_iff.2 distinct
  have hashed : plan.hashes.keys.Perm plan.order := by
    rw [hashes, ← in_order]
    exact Feature.keys_hashTable distinct'
  refine ⟨ids ▸ perm, in_order, ?_, hashed, fun f hf => ?_, fun backend overrides => ?_⟩
  · rw [features]
    exact Feature.inOrder_perm perm distinct
  · rw [hashes]
    exact Feature.find?_hashTable distinct' hf
  · refine isSome_cacheKey? fun id hid => ?_
    rw [← SortedMap.mem_keys]
    exact hashed.mem_iff.2 hid

/-- What a feature refers to stands before it in the order: there is an edge,
and edges point forward. -/
theorem idxOf_lt_of_refersTo (h : n.plan = .ok plan) {f : Feature} (hf : f ∈ n.features)
    {d : String} (refers : RefersTo n.features f d) :
    plan.order.idxOf d < plan.order.idxOf f.id := by
  obtain ⟨greedy, perm⟩ := order_of_plan h
  obtain ⟨deps, exact_deps, edges⟩ := Graph.edges_of_build (plan_eq_ok h).1
  refine greedy.forward (perm.mem_iff.2 (List.mem_map_of_mem hf)) ?_
  show _ ∈ plan.graph.edges
  rw [edges, List.mem_flatMap]
  exact ⟨f, hf, List.mem_map_of_mem (((exact_deps f hf).2 d).2 refers)⟩

theorem respectsReferences_of_plan (h : n.plan = .ok plan) {p : Part}
    (coherent : plan.Coherent p n) : plan.RespectsReferences := by
  intro i f hf
  have member : f ∈ n.features := coherent.features.mem_iff.1 (List.mem_of_getElem? hf)
  refine ⟨fun r mentions bound => ?_, fun d refers => ?_⟩
  · obtain ⟨g, hg, leads⟩ := (wellReferenced_of_plan h).bound f member r mentions bound
    exact ⟨g, coherent.features.mem_iff.2 hg, leads⟩
  · have before := idxOf_lt_of_refersTo h member (refers.mono coherent.features.subset)
    have place : plan.order[i]? = some f.id := by
      rw [← coherent.ids, List.getElem?_map, hf]
      rfl
    obtain ⟨long, e⟩ := List.getElem?_eq_some_iff.1 place
    have distinct : plan.order.Nodup :=
      (order_of_plan h).2.nodup_iff.2 (wellReferenced_of_plan h).ids
    have here : plan.order.idxOf f.id = i := by
      rw [← e]
      exact distinct.idxOf_getElem i long
    rw [here] at before
    refine ⟨plan.order.idxOf d, before, ?_⟩
    rw [List.getElem?_eq_getElem (by omega), List.getElem_idxOf]

end NormalPart

theorem Part.compile_eq_ok {p : Part} {overrides : Overrides} {options : Options}
    {plan : BuildPlan} :
    p.compile overrides options = .ok plan
      ↔ ∃ n, p.normal overrides options = .ok n ∧ n.plan = .ok plan := by
  unfold Part.compile
  rw [Checked.bind_eq_ok]
  simp only [Checked.mapError_eq_ok]

/-- The plan of a part whose normal form has a graph with an order. -/
theorem Part.compile_of_order {p : Part} {overrides : Overrides} {options : Options}
    {n : NormalPart} {graph : Graph} {order : List String}
    (normal : p.normal overrides options = .ok n) (built : Graph.build n.features = .ok graph)
    (ordered : graph.order = .ok order) :
    p.compile overrides options = .ok ⟨n.partId, n.units, order, graph,
      Feature.inOrder order n.features, Feature.hashTable (Feature.inOrder order n.features),
      n.diagnostics⟩ := by
  refine Part.compile_eq_ok.2 ⟨n, normal, ?_⟩
  exact Checked.bind_eq_ok.2 ⟨graph, built, Checked.bind_eq_ok.2 ⟨order, ordered, rfl⟩⟩

/-- A plan that a part is compiled to is coherent, and builds everything
after what it refers to. -/
theorem Part.compile_coherent {p : Part} {overrides : Overrides} {options : Options}
    {plan : BuildPlan} (h : p.compile overrides options = .ok plan) :
    ∃ n, p.normal overrides options = .ok n ∧ plan.Coherent p n ∧ plan.RespectsReferences := by
  obtain ⟨n, normal, planned⟩ := Checked.bind_eq_ok.1 h
  have normal := Checked.mapError_eq_ok.1 normal
  have planned := Checked.mapError_eq_ok.1 planned
  have coherent := NormalPart.coherent_of_plan planned (Part.map_id_normal normal)
  exact ⟨n, normal, coherent, NormalPart.respectsReferences_of_plan planned coherent⟩

/-- A sketch and, declared before it, a mirror image of what is made of it.
The mirror image has to wait. -/
def mirroredSketch : Part where
  id := "mirrored"
  units := none
  params := []
  features :=
    [⟨"copy", [], [], .mirror,
      (.query .solid [.createdBy "base"] [],
        .query .face [.planar, .createdBy "base"]
          [.closestTo (.query .edge [.createdBy "base"] [])],
        "body:copy", ())⟩,
      ⟨"base", [], [], .sketch, (none, [], ())⟩]
  constraints := []
  assertions := []
  fti := none

theorem mirroredSketch_coherent :
    ∃ plan, mirroredSketch.compile .empty .standard = .ok plan ∧ plan.order = ["base", "copy"]
      ∧ ∃ n, mirroredSketch.normal .empty .standard = .ok n ∧ plan.Coherent mirroredSketch n
        ∧ plan.RespectsReferences := by
  have normal : mirroredSketch.normal .empty .standard
      = .ok ⟨"mirrored", .mm, .empty .mm, mirroredSketch.features, []⟩ := rfl
  have built : Graph.build mirroredSketch.features
      = .ok ⟨["copy", "base"], [⟨"base", "copy"⟩]⟩ := rfl
  have ordered : (⟨["copy", "base"], [⟨"base", "copy"⟩]⟩ : Graph).order = .ok ["base", "copy"] := by
    decide +kernel
  obtain ⟨plan, h, order⟩ : ∃ plan, mirroredSketch.compile .empty .standard = .ok plan
      ∧ plan.order = ["base", "copy"] := by
    unfold Part.compile NormalPart.plan
    rw [normal]
    simp only [Except.mapError, bind, Except.bind, built, ordered]
    exact ⟨_, rfl, rfl⟩
  exact ⟨plan, h, order, Part.compile_coherent h⟩

end PartPlan
