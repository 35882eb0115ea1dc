/-
Parts whose features have other ids. Nothing in a compilation depends on what an
id looks like, or on which of two comes first in the alphabet, although sets and
tables of ids are kept in that order: as long as different ids stay different and
none becomes blank, a renamed part compiles if the part does, to the plan with
the ids replaced, and if a cycle is reported of the part, the same cycle with the
ids replaced is reported of it.

Only the list of edges may be in another order, because the edges into a feature
are listed by the ids they come from.
-/
import Mathlib.Logic.Equiv.Basic
import PartPlan.Proofs.Feature.Renaming
import PartPlan.Proofs.Graph.Renaming
import PartPlan.Proofs.Plan.Declaration

namespace PartPlan

variable {ρ : String → String} {known : Set String} {features : List Feature}

/-- An edge between renamed features. -/
def Edge.rename (ρ : String → String) (e : Edge) : Edge := ⟨ρ e.dependency, ρ e.dependent⟩

-- ================================================================= graphs

/-- All ids that occur in the features are known, different ones stay different,
and those of features stay filled. -/
structure Feature.Renames (ρ : String → String) (known : Set String) (features : List Feature) :
    Prop where
  injective : Set.InjOn ρ known
  names : ∀ f ∈ features, ∀ id, f.Names id → id ∈ known
  filled : ∀ f ∈ features, Text.trim (ρ f.id) ≠ ""

namespace Feature.Renames

variable (h : Feature.Renames ρ known features)
include h

theorem own {f : Feature} (hf : f ∈ features) : f.id ∈ known := h.names f hf _ .own

theorem mem_ids : ∀ id ∈ features.map Feature.id, id ∈ known :=
  List.forall_mem_map.2 fun _ hf => h.own hf

theorem wellReferenced (wr : WellReferenced features) :
    WellReferenced (features.map (Feature.rename ρ)) where
  not_blank := List.forall_mem_map.2 h.filled
  ids := by
    rw [List.map_map]
    show (features.map (ρ ∘ Feature.id)).Nodup
    rw [← List.map_map]
    exact wr.ids.map_on fun a ha b hb => h.injective (h.mem_ids a ha) (h.mem_ids b hb)
  profiles := by
    rw [List.flatMap_map]
    simpa only [Feature.declaredProfiles_rename] using wr.profiles
  outputs := by
    rw [List.flatMap_map]
    simpa only [Feature.outputs_rename] using wr.outputs
  bound := by
    refine List.forall_mem_map.2 fun f hf r mentioned bound => ?_
    obtain ⟨r, mentions, rfl⟩ := Feature.mentions_rename.1 mentioned
    obtain ⟨g, hg, leads⟩ := wr.bound f hf r mentions (Reference.isFree_rename.not.1 bound)
    have named : ∀ id, r.Names id → id ∈ known :=
      fun id names => h.names f hf id (Reference.names_of_mentions mentions names)
    exact ⟨_, List.mem_map_of_mem hg, (Reference.leadsTo_rename h.injective named (h.own hg)).2 leads⟩
  anchored := by
    refine List.forall_mem_map.2 fun f hf none_given r mentioned => ?_
    obtain ⟨r, mentions, rfl⟩ := Feature.mentions_rename.1 mentioned
    rw [Reference.isFree_rename]
    exact wr.anchored f hf (List.map_eq_nil_iff.1 none_given) r mentions

/-- Renamed features have the renamed graph. -/
theorem build {g : Graph} (built : Graph.build features = .ok g) :
    ∃ g', Graph.build (features.map (Feature.rename ρ)) = .ok g' ∧ g.Renamed ρ g'
      ∧ g'.edges.Perm (g.edges.map (Edge.rename ρ)) := by
  obtain ⟨g', built'⟩ :=
    Graph.exists_build_iff.2 (h.wellReferenced (Graph.exists_build_iff.1 ⟨g, built⟩))
  have wf := Graph.wellFormed_of_build built
  have wf' := Graph.wellFormed_of_build built'
  have listed : ∀ x ∈ g.nodes, x ∈ known := by
    rw [Graph.nodes_of_build built]
    exact h.mem_ids
  have nodes : g'.nodes = g.nodes.map ρ := by
    rw [Graph.nodes_of_build built', Graph.nodes_of_build built, List.map_map, List.map_map]
    rfl
  have edges : ∀ a ∈ g.nodes, ∀ b ∈ g.nodes, g'.HasEdge (ρ a) (ρ b) ↔ g.HasEdge a b := by
    intro a ha b hb
    rw [Graph.hasEdge_of_build built, Graph.hasEdge_of_build built']
    simp only [List.mem_map, exists_exists_and_eq_and]
    refine exists_congr fun f => and_congr_right fun hf => and_congr ?_ ?_
    · exact h.injective.eq_iff (h.own hf) (listed b hb)
    · exact refersTo_rename h.injective h.names hf (listed a ha)
  have renamed : g.Renamed ρ g' := ⟨wf, wf', h.injective.mono listed, nodes, edges⟩
  refine ⟨g', built', renamed, ?_⟩
  have apart : (g.edges.map (Edge.rename ρ)).Nodup := by
    refine (Graph.nodup_edges_of_build built).map_on fun e he e' he' same => ?_
    obtain ⟨d, x⟩ := e
    obtain ⟨d', x'⟩ := e'
    rw [Edge.rename, Edge.rename, Edge.mk.injEq] at same
    obtain ⟨hd, hx⟩ := wf.ends he
    obtain ⟨hd', hx'⟩ := wf.ends he'
    rw [renamed.injective hd hd' same.1, renamed.injective hx hx' same.2]
  refine (List.perm_ext_iff_of_nodup (Graph.nodup_edges_of_build built') apart).2 fun e' => ?_
  rw [List.mem_map]
  constructor
  · intro edge
    obtain ⟨d, x⟩ := e'
    obtain ⟨a, ha, rfl⟩ := renamed.mem_nodes.1 (wf'.ends edge).1
    obtain ⟨b, hb, rfl⟩ := renamed.mem_nodes.1 (wf'.ends edge).2
    exact ⟨⟨a, b⟩, (edges a ha b hb).1 edge, rfl⟩
  · intro edge
    obtain ⟨⟨a, b⟩, edge, rfl⟩ := edge
    obtain ⟨ha, hb⟩ := wf.ends edge
    exact (edges a ha b hb).2 edge

/-- Features are found under their other ids. -/
theorem inOrder {order : List String} (hids : ∀ id ∈ order, id ∈ known) :
    Feature.inOrder (order.map ρ) (features.map (Feature.rename ρ))
      = (Feature.inOrder order features).map (Feature.rename ρ) := by
  unfold Feature.inOrder
  rw [List.filterMap_map, List.map_filterMap]
  refine List.filterMap_congr fun id hid => ?_
  rw [Function.comp_apply, List.find?_map]
  refine congrArg (Option.map (Feature.rename ρ)) (List.find?_congr fun f hf => ?_)
  rw [Bool.eq_iff_iff, Function.comp_apply, beq_iff_eq, beq_iff_eq]
  exact h.injective.eq_iff (h.own hf) (hids id hid)

end Feature.Renames

-- ================================================================== parts

namespace Part

/-- A part with other ids for its features. -/
def rename (ρ : String → String) (p : Part) : Part :=
  { p with features := p.features.map (Feature.rename ρ) }

/-- The ids that occur in a part. -/
def Names (p : Part) (id : String) : Prop := ∃ f ∈ p.features, f.Names id

variable {p : Part} {overrides : Overrides} {options : Options} {table : ParamTable}

theorem evaluated_rename (inj : Set.InjOn ρ {id | p.Names id}) :
    (p.rename ρ).features.map (Feature.evaluated table)
      = (p.features.map (Feature.evaluated table)).map (Feature.rename ρ) := by
  show (p.features.map _).map _ = _
  rw [List.map_map, List.map_map]
  exact List.map_congr_left fun f hf =>
    Feature.evaluated_rename inj fun id named => ⟨f, hf, named⟩

theorem renames_evaluated (inj : Set.InjOn ρ {id | p.Names id})
    (filled : ∀ id, p.Names id → Text.trim id ≠ "" → Text.trim (ρ id) ≠ "")
    (valid : ∀ f ∈ p.features, f.Valid table) :
    Feature.Renames ρ {id | p.Names id} (p.features.map (Feature.evaluated table)) where
  injective := inj
  names := List.forall_mem_map.2 fun f hf _ named => ⟨f, hf, Feature.names_of_evaluated named⟩
  filled := List.forall_mem_map.2 fun f hf => filled f.id ⟨f, hf, .own⟩ (valid f hf).1

theorem valid_rename (filled : ∀ id, p.Names id → Text.trim id ≠ "" → Text.trim (ρ id) ≠ "")
    (valid : ∀ f ∈ p.features, f.Valid table) :
    ∀ f ∈ (p.rename ρ).features, f.Valid table :=
  List.forall_mem_map.2 fun f hf => (valid f hf).rename (filled f.id ⟨f, hf, .own⟩ (valid f hf).1)

/-- If the ids in a part are replaced, different ones by different ones and
those that are not blank by such, it compiles if it did. Order, nodes and
features of the plan are then those of the plan with the ids replaced, in the
same order, and the edges are the same apart from their order. And if a cycle is
reported, it is the same cycle with the ids replaced. -/
theorem compile_rename (inj : Set.InjOn ρ {id | p.Names id})
    (filled : ∀ id, p.Names id → Text.trim id ≠ "" → Text.trim (ρ id) ≠ "")
    (overrides : Overrides) (options : Options) :
    (∀ plan, p.compile overrides options = .ok plan →
      ∃ plan', (p.rename ρ).compile overrides options = .ok plan'
        ∧ plan'.order = plan.order.map ρ ∧ plan'.features = plan.features.map (Feature.rename ρ)
        ∧ plan'.graph.nodes = plan.graph.nodes.map ρ
        ∧ plan'.graph.edges.Perm (plan.graph.edges.map (Edge.rename ρ)))
      ∧ ∀ vs, p.compile overrides options = .error (.graph (.cycle vs)) →
        (p.rename ρ).compile overrides options = .error (.graph (.cycle (vs.map ρ))) := by
  constructor
  · intro plan compiled
    obtain ⟨table, h⟩ := stages_of_compile compiled
    have renames := renames_evaluated inj filled h.valid
    obtain ⟨graph, built, renamed, edges⟩ := renames.build h.graph
    have ordered := renamed.order_ok h.order
    rw [← evaluated_rename inj] at built
    obtain ⟨plan', compiled', h', rfl, order⟩ :=
      exists_stages (p := p.rename ρ) h.params (valid_rename filled h.valid) built ordered
    refine ⟨plan', compiled', order, ?_, renamed.nodes, edges⟩
    have known : ∀ id ∈ plan.order, id ∈ {id | p.Names id} := by
      rw [← h.map_id]
      refine List.forall_mem_map.2 fun f hf => ?_
      exact renames.own (h.features_perm.mem_iff.1 hf)
    rw [h'.features, order, evaluated_rename inj, renames.inOrder known, h.features]
  · intro vs compiled
    obtain ⟨table, graph, params, valid, built, cyclic⟩ := compile_eq_cycle.1 compiled
    obtain ⟨graph', built', renamed, -⟩ := (renames_evaluated inj filled valid).build built
    rw [← evaluated_rename inj] at built'
    exact compile_eq_cycle.2 ⟨table, graph', params, valid_rename filled valid, built',
      renamed.order_cycle cyclic⟩

/-- Two ids that change places. -/
def swapped (a b : String) : String → String := Equiv.swap a b

theorem filled_swapped {a b id : String} (ha : Text.trim a ≠ "") (hb : Text.trim b ≠ "")
    (h : Text.trim id ≠ "") : Text.trim (swapped a b id) ≠ "" := by
  unfold swapped
  rw [Equiv.swap_apply_def]
  split
  · exact hb
  · split
    · exact ha
    · exact h

/-- A drilled plate in which hole and plate have each other's id is built in the
same order, and of two entangled frames with each other's id the same cycle is
reported. -/
theorem compile_swapped :
    (∃ plan', (drilledPlate.rename (swapped "hole" "plate")).compile .empty .standard = .ok plan'
      ∧ (drilledPlate.plan 40).order = ["plate", "hole", "round"]
      ∧ plan'.order = ["hole", "plate", "round"])
    ∧ entangled.compile .empty .standard = .error (.graph (.cycle ["right", "left"]))
    ∧ (entangled.rename (swapped "left" "right")).compile .empty .standard
      = .error (.graph (.cycle ["left", "right"])) := by
  have inj (a b : String) (known : Set String) : Set.InjOn (swapped a b) known :=
    (Equiv.swap a b).injective.injOn
  refine ⟨?_, ?_⟩
  · obtain ⟨found, -⟩ := compile_rename (inj "hole" "plate" {id | drilledPlate.Names id})
      (fun id _ => filled_swapped (by decide) (by decide)) .empty .standard
    obtain ⟨plan', compiled, order, -⟩ := found _ drilledPlate.compile_standard
    exact ⟨plan', compiled, rfl, order⟩
  · have normal : entangled.normal .empty .standard
        = .ok ⟨"entangled", .mm, .empty .mm, entangled.features, []⟩ := rfl
    have built : Graph.build entangled.features
        = .ok ⟨["left", "right"], [⟨"right", "left"⟩, ⟨"left", "right"⟩]⟩ := rfl
    have cyclic : (⟨["left", "right"], [⟨"right", "left"⟩, ⟨"left", "right"⟩]⟩ : Graph).order
        = .error (.cycle ["right", "left"]) := by decide +kernel
    have reported : entangled.compile .empty .standard
        = .error (.graph (.cycle ["right", "left"])) := by
      unfold compile NormalPart.plan
      rw [normal]
      simp only [Except.mapError, bind, Except.bind, built, cyclic]
    obtain ⟨-, carried⟩ := compile_rename (inj "left" "right" {id | entangled.Names id})
      (fun id _ => filled_swapped (by decide) (by decide)) .empty .standard
    exact ⟨reported, carried _ reported⟩

end Part
end PartPlan
