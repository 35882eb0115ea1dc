/-
The graph of features in normal form is the graph of the features. What a feature
declares is not touched by normalization, and what it refers to stays the same up
to repetition (`Feature.references_evaluated`). So its references lead to the same
features, or the first that leads nowhere is the same one; only where that is a
free query, the message describes it as it now is. `GraphError.undescribed` leaves
the description out.
-/
import PartPlan.Proofs.Feature.Evaluated
import PartPlan.Proofs.Graph.Build
import PartPlan.Proofs.Selector.Anchors

namespace PartPlan

/-- An error without the description of the selector. -/
def GraphError.undescribed : GraphError → GraphError
  | anchorMissing feature field _ => .anchorMissing feature field ""
  | e => e

-- ============================================================== references

deriving instance DecidableEq for Reference

/-- A reference with its free query in normal form. -/
def Reference.normal : Reference → Reference
  | free field query => .free field query.normal
  | r => r

theorem Anchor.reference?_normal (field : String) (a : Anchor) :
    a.normal.reference? field = (a.reference? field).map Reference.normal := by
  cases a <;> rfl

/-- The references of a slot stay the same up to repetition. Of its free queries
the first is listed, which is still the first. -/
theorem SelectorSlot.references_normal (s : SelectorSlot) :
    SameFirst s.normal.references (s.references.map Reference.normal) := by
  have anchors := s.selector.anchors_normal
  have named : (s.selector.anchors.map Anchor.normal).filterMap (Anchor.reference? s.name)
      = (s.selector.anchors.filterMap (Anchor.reference? s.name)).map Reference.normal := by
    rw [List.filterMap_map, List.map_filterMap]
    exact List.filterMap_congr fun a _ => a.reference?_normal s.name
  have first : s.selector.normal.anchors.findSome? Anchor.query?
      = (s.selector.anchors.findSome? Anchor.query?).map Selector.normal := by
    rw [anchors.findSome?_eq, List.findSome?_map, List.map_findSome?]
    exact congrArg (s.selector.anchors.findSome? ·) (funext fun a => a.query?_normal)
  show SameFirst (s.selector.normal.anchors.filterMap (Anchor.reference? s.name)
    ++ (s.selector.normal.anchors.findSome? Anchor.query?).toList.map (.free s.name)) _
  unfold references
  rw [List.map_append, ← named, first]
  refine (anchors.filterMap _).append ?_
  cases s.selector.anchors.findSome? Anchor.query? with
  | none => exact SameFirst.refl _
  | some q => exact SameFirst.refl _

/-- What a feature refers to stays the same up to repetition. -/
theorem Feature.references_evaluated (f : Feature) (table : ParamTable) :
    SameFirst (f.evaluated table).references (f.references.map Reference.normal) := by
  have slots : SameFirst ((f.evaluated table).selectorSlots.flatMap SelectorSlot.references)
      ((f.selectorSlots.flatMap SelectorSlot.references).map Reference.normal) := by
    rw [selectorSlots_evaluated, List.flatMap_map, List.map_flatMap]
    exact SameFirst.flatMap_congr fun s _ => s.references_normal
  unfold references
  rw [deps_evaluated, profileRefs_evaluated, patternRef?_evaluated]
  simp only [List.map_append, List.map_map]
  exact (SameFirst.refl _).append slots

-- ============================================================= dependencies

namespace Scope

variable (scope : Scope) (f : Feature)

/-- How a free query is written matters only for its description in errors. -/
theorem resolve_normal (r : Reference) :
    (scope.resolve f r.normal).mapError GraphError.undescribed
      = (scope.resolve f r).mapError GraphError.undescribed := by
  cases r with
  | free field query =>
    rw [Reference.normal, resolve, resolve]
    split <;> rfl
  | _ => rfl

theorem resolve_evaluated (table : ParamTable) : scope.resolve (f.evaluated table) = scope.resolve f := by
  funext r
  cases r <;> rfl

/-- A feature in normal form has the same dependencies. -/
theorem dependencies_evaluated (table : ParamTable) :
    (scope.dependencies (f.evaluated table)).mapError GraphError.undescribed
      = (scope.dependencies f).mapError GraphError.undescribed := by
  let resolved (r : Reference) := (scope.resolve f r).mapError GraphError.undescribed
  let targets (found : List (Option String)) := TextSet.ofList (found.filterMap id)
  have passes : ∀ g : Feature, scope.resolve g = scope.resolve f →
      (scope.dependencies g).mapError GraphError.undescribed
        = (g.references.mapM resolved).map targets := by
    intro g same
    unfold dependencies
    rw [same, Checked.mapError_bind, Checked.mapError_mapM]
    rfl
  have normal : (f.references.map Reference.normal).mapM resolved = f.references.mapM resolved := by
    rw [List.mapM_map]
    exact congrArg (f.references.mapM ·) (funext fun r => scope.resolve_normal f r)
  rw [passes _ (scope.resolve_evaluated f table), passes f rfl, ← normal]
  refine (f.references_evaluated table).mapM_congr fun found found' same => ?_
  refine TextSet.ofList_congr fun d => ?_
  simp only [List.mem_filterMap, same]

theorem add_evaluated (table : ParamTable) (index : ℕ) :
    scope.add (f.evaluated table) index = scope.add f index := by
  unfold add
  rw [f.id_evaluated, f.declaredProfiles_evaluated, f.outputs_evaluated, f.isPattern_evaluated]

/-- Features in normal form declare the same names. -/
theorem collect_evaluated (features : List Feature) (table : ParamTable) :
    collect (features.map (Feature.evaluated table)) = collect features := by
  unfold collect
  rw [List.zipIdx_map, List.foldlM_map]
  exact congrArg (features.zipIdx.foldlM · empty) <| funext fun scope => funext fun p =>
    scope.add_evaluated p.1 table p.2

end Scope

-- =================================================================== graphs

namespace Graph

theorem edgesInto_evaluated (scope : Scope) (f : Feature) (table : ParamTable) :
    (edgesInto scope (f.evaluated table)).mapError GraphError.undescribed
      = (edgesInto scope f).mapError GraphError.undescribed := by
  unfold edgesInto
  rw [Checked.mapError_bind, Checked.mapError_bind, scope.dependencies_evaluated f table]
  rfl

/-- Features in normal form have the graph that the features have, or fail to
have one for the same reason. -/
theorem build_evaluated_agrees (features : List Feature) (table : ParamTable) :
    (build (features.map (Feature.evaluated table))).mapError GraphError.undescribed
      = (build features).mapError GraphError.undescribed := by
  have nodes : (features.map (Feature.evaluated table)).map Feature.id = features.map Feature.id :=
    List.map_map
  unfold build
  rw [Scope.collect_evaluated, nodes, Checked.mapError_bind, Checked.mapError_bind]
  refine congrArg _ (funext fun scope => ?_)
  rw [Checked.mapError_bind, Checked.mapError_bind, Checked.mapError_mapM, Checked.mapError_mapM,
    List.mapM_map]
  have each : (fun f => (edgesInto scope f).mapError GraphError.undescribed) ∘ Feature.evaluated table
      = fun f => (edgesInto scope f).mapError GraphError.undescribed :=
    funext fun f => edgesInto_evaluated scope f table
  rw [each]

end Graph

/-- Normalization does not change the graph. If all features of a list have normal
forms, these have the graph of the features, or the same error stands in its way,
up to the description of a selector. And in every scope the normal form of a
selector is pinned to the same features as the selector, is pinned in full if it
is, and has the same first anchor that refers to nothing. -/
theorem normal_keeps_graph :
    (∀ (table : ParamTable) (features normal : List Feature),
        features.mapM (Feature.normal table) = .ok normal →
        (Graph.build normal).mapError GraphError.undescribed
          = (Graph.build features).mapError GraphError.undescribed)
      ∧ ∀ (scope : AnchorScope) (s : Selector),
        (s.normal.analyze scope).map (fun a => (a.features, a.isFull))
          = (s.analyze scope).map fun a => (a.features, a.isFull) := by
  refine ⟨fun table features normal h => ?_, fun scope s => s.analyze_normal scope⟩
  have evaluated : normal.map id = features.map (Feature.evaluated table) :=
    Checked.map_of_mapM_eq_ok h fun f _ g hg => ((f.accepts table g).1 hg).2
  rw [List.map_id] at evaluated
  rw [evaluated]
  exact Graph.build_evaluated_agrees features table

/-- A frame on a face of a sketch that is nearest to an edge. The edge is asked for
twice, and its predicate is given again in one of the two. -/
def doubledFrame (p : Predicate) : List Feature :=
  [⟨"base", [], [], .sketch, (none, [], ())⟩,
    ⟨"frame", [], [], .datumFrame,
      (.query .face [.createdBy "base"]
        [.closestTo (.query .edge [p, p] [.minZ, .minZ]), .maxZ,
          .closestTo (.query .edge [p] [.minZ])], ())⟩]

/-- The frame without repetitions. -/
def singleFrame (p : Predicate) : List Feature :=
  [⟨"base", [], [], .sketch, (none, [], ())⟩,
    ⟨"frame", [], [], .datumFrame,
      (.query .face [.createdBy "base"] [.closestTo (.query .edge [p] [.minZ]), .maxZ], ())⟩]

/-- If the edge is pinned to the sketch, the frame has to follow it. If it is free,
the error describes it as it is written. -/
theorem doubledFrame_graph :
    (doubledFrame (.createdBy "base")).mapM (Feature.normal (.empty .mm))
        = .ok (singleFrame (.createdBy "base"))
      ∧ Graph.build (doubledFrame (.createdBy "base")) = .ok ⟨["base", "frame"], [⟨"base", "frame"⟩]⟩
      ∧ (Graph.build (singleFrame (.createdBy "base"))).mapError GraphError.undescribed
        = .ok ⟨["base", "frame"], [⟨"base", "frame"⟩]⟩
      ∧ (doubledFrame .planar).mapM (Feature.normal (.empty .mm)) = .ok (singleFrame .planar)
      ∧ Graph.build (doubledFrame .planar)
        = .error (.anchorMissing "frame" "on" "selector.edge(2p, 2r)")
      ∧ Graph.build (singleFrame .planar)
        = .error (.anchorMissing "frame" "on" "selector.edge(1p, 1r)")
      ∧ (Graph.build (singleFrame .planar)).mapError GraphError.undescribed
        = (Graph.build (doubledFrame .planar)).mapError GraphError.undescribed :=
  ⟨rfl, rfl, normal_keeps_graph.1 (.empty .mm) (doubledFrame (.createdBy "base")) _ rfl, rfl, rfl,
    rfl, normal_keeps_graph.1 (.empty .mm) (doubledFrame .planar) _ rfl⟩

end PartPlan
