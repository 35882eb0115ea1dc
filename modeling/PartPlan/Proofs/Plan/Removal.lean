/-
Taking features out of a part. If what is left depends on nothing that is taken
out, it compiles, and its plan is what is left of the plan: every stage of the
compilation commutes with leaving features out. Features that are declared last
and on which nothing depends are also built last, so to append features never
disturbs the order of those that were there.
-/
import PartPlan.Proofs.Plan.Stages

namespace PartPlan

-- ======================================================== lists of features

namespace Feature

variable {features : List Feature} {f : Feature} {keep : String → Bool}

theorem kept_cons_of_pos (here : keep f.id = true) :
    kept keep (f :: features) = f :: kept keep features := List.filter_cons_of_pos here

theorem kept_cons_of_neg (cut : ¬ keep f.id = true) :
    kept keep (f :: features) = kept keep features := List.filter_cons_of_neg cut

/-- A feature that is kept is found as before. -/
theorem find?_kept {id : String} (here : keep id = true) :
    (kept keep features).find? (·.id == id) = features.find? (·.id == id) := by
  unfold kept
  rw [List.find?_filter]
  congr 1
  funext f
  by_cases same : f.id = id
  · simp [same, here]
  · simp [same]

/-- What is kept of features in an order is in what is left of the order. -/
theorem inOrder_kept {order : List String} :
    inOrder (order.filter keep) (kept keep features) = kept keep (inOrder order features) := by
  unfold inOrder
  -- an id that is kept leads to the same feature, one that is not leads to none
  induction order with
  | nil => rfl
  | cons id order ih =>
    by_cases here : keep id = true
    · rw [List.filter_cons_of_pos here, List.filterMap_cons, List.filterMap_cons, find?_kept here]
      cases found : features.find? (·.id == id) with
      | none => exact ih
      | some f =>
        have same : f.id = id := by simpa using List.find?_some found
        rw [kept_cons_of_pos (same ▸ here), ← ih]
    · rw [List.filter_cons_of_neg here, List.filterMap_cons]
      cases found : features.find? (·.id == id) with
      | none => exact ih
      | some f =>
        have same : f.id = id := by simpa using List.find?_some found
        rw [kept_cons_of_neg (same ▸ here), ← ih]

theorem kept_map_evaluated (table : ParamTable) :
    kept keep (features.map (evaluated table)) = (kept keep features).map (evaluated table) :=
  List.filter_map

end Feature

-- ================================================================== parts

/-- A part without the features that are not kept. -/
def Part.keeping (p : Part) (keep : String → Bool) : Part :=
  { p with features := Feature.kept keep p.features }

namespace Part.Stages

variable {p : Part} {overrides : Overrides} {options : Options} {table : ParamTable}
  {plan : BuildPlan} {keep : String → Bool} (h : p.Stages overrides options table plan)
include h

/-- What is left of a part comes through the stages. -/
theorem keeping (closed : plan.graph.Closed keep) :
    ∃ plan', (p.keeping keep).compile overrides options = .ok plan'
      ∧ (p.keeping keep).Stages overrides options table plan'
      ∧ plan'.graph = plan.graph.restrict keep ∧ plan'.order = plan.order.filter keep := by
  have valid : ∀ f ∈ (p.keeping keep).features, f.Valid table :=
    fun f hf => h.valid f (Feature.mem_kept.1 hf).1
  have built := Graph.build_restrict h.graph closed
  rw [Feature.kept_map_evaluated] at built
  exact exists_stages (p := p.keeping keep) h.params valid built (Graph.order_restrict closed h.order)

/-- If no feature that is taken out is declared before one that is left, none is
built before. -/
theorem keptFirst_order (closed : plan.graph.Closed keep)
    (last : Graph.KeptFirst keep (p.features.map Feature.id)) :
    Graph.KeptFirst keep plan.order := by
  obtain ⟨-, greedy, -⟩ := Graph.order_eq_ok.1 h.order
  have nodes := Graph.nodes_of_build h.graph
  rw [List.map_map] at nodes
  have first : Graph.KeptFirst keep plan.graph.nodes := by
    rw [nodes]
    exact last
  have whole : plan.graph.Greedy ([] ++ plan.order) := greedy
  exact whole.kept_first closed first

end Part.Stages

/-- If features are taken out of a part on which none of the others depends, the
others compile. They are built in the order they were in, with the edges there
were between them, and each has its normal form and its hash. If moreover what is
taken out was declared last, it was built last. -/
theorem Part.compile_keeping {p : Part} {overrides : Overrides} {options : Options}
    {plan : BuildPlan} (h : p.compile overrides options = .ok plan) {keep : String → Bool}
    (closed : ∀ d x, plan.graph.HasEdge d x → keep x = true → keep d = true) :
    ∃ plan', (p.keeping keep).compile overrides options = .ok plan'
      ∧ plan'.order = plan.order.filter keep
      ∧ plan'.graph.edges = plan.graph.edges.filter (fun e => keep e.dependency && keep e.dependent)
      ∧ plan'.features = Feature.kept keep plan.features
      ∧ (∀ id, keep id = true → plan'.feature? id = plan.feature? id
        ∧ plan'.hashes.find? id = plan.hashes.find? id)
      ∧ ((p.features.map Feature.id).Pairwise (fun a b => keep b = true → keep a = true) →
        ∃ rest, plan.order = plan'.order ++ rest
          ∧ rest.Perm ((p.features.map Feature.id).filter fun id => !keep id)) := by
  obtain ⟨table, h⟩ := stages_of_compile h
  obtain ⟨plan', compiled, h', graph, order⟩ := h.keeping closed
  have features : plan'.features = Feature.kept keep plan.features := by
    have left : plan'.features = Feature.inOrder plan'.order
        ((Feature.kept keep p.features).map (Feature.evaluated table)) := h'.features
    rw [left, order, h.features, ← Feature.kept_map_evaluated, Feature.inOrder_kept]
  have found : ∀ id, keep id = true → plan'.feature? id = plan.feature? id := by
    intro id here
    unfold BuildPlan.feature?
    rw [features, Feature.find?_kept here]
  refine ⟨plan', compiled, order, congrArg Graph.edges graph, features, fun id here => ?_,
    fun last => ?_⟩
  · refine ⟨found id here, ?_⟩
    rw [h'.hash?_eq, h.hash?_eq, found id here]
  · refine ⟨plan.order.filter fun id => !keep id, ?_, h.coherent.order.filter _⟩
    rw [order]
    exact (h.keptFirst_order closed last).eq_append

/-- A drilled plate with and without its edges rounded, which is done last. -/
theorem drilledPlate.sharp_compile : ∃ plan' rest,
    drilledPlate.compile .empty .standard = .ok (drilledPlate.plan 40)
      ∧ (drilledPlate.keeping (· != "round")).compile .empty .standard = .ok plan'
      ∧ plan'.order = ["plate", "hole"] ∧ plan'.graph.edges = [⟨"plate", "hole"⟩]
      ∧ plan'.feature? "hole" = (drilledPlate.plan 40).feature? "hole"
      ∧ plan'.hashes.find? "hole" = (drilledPlate.plan 40).hashes.find? "hole"
      ∧ (drilledPlate.plan 40).order = plan'.order ++ rest ∧ rest.Perm ["round"] := by
  have compiled := drilledPlate.compile_standard
  have closed : ∀ d x, (drilledPlate.plan 40).graph.HasEdge d x → (x != "round") = true →
      (d != "round") = true := by
    intro d x edge _
    rcases List.mem_pair.1 edge with same | same
    · rw [(Edge.mk.inj same).1]
      rfl
    · rw [(Edge.mk.inj same).1]
      rfl
  obtain ⟨plan', h, order, edges, -, kept, last⟩ := Part.compile_keeping compiled closed
  obtain ⟨rest, appended, perm⟩ := last (by decide)
  obtain ⟨found, hashed⟩ := kept "hole" rfl
  exact ⟨plan', rest, compiled, h, order, edges, found, hashed, appended, perm⟩

end PartPlan
