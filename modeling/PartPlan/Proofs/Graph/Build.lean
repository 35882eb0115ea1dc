/-
The graph of a list of features. It exists exactly if the features are
`WellReferenced`, and then its edges are the relation `RefersTo`: each feature
has an edge from each one it refers to, and from no other.
-/
import Mathlib.Data.List.Nodup
import PartPlan.Proofs.Graph.References
import PartPlan.Proofs.Graph.Scope

namespace PartPlan

/-- Features whose names can stand together, whose references lead
somewhere, and whose free queries stand only where the author has given
dependencies. -/
structure WellReferenced (features : List Feature) : Prop extends WellNamed features where
  bound : ∀ f ∈ features, ∀ r, f.Mentions r → ¬ r.IsFree → ∃ g ∈ features, r.LeadsTo g
  anchored : ∀ f ∈ features, f.deps = [] → ∀ r, f.Mentions r → ¬ r.IsFree

namespace Scope

variable {scope : Scope} {features : List Feature} {f : Feature} {r : Reference} {d : String}

-- ============================================================ resolution

theorem Describes.exists_id (h : scope.Describes features) {target : String} :
    (∃ g ∈ features, g.id = target ∧ g.id = d) ↔ scope.ids.contains target = true ∧ target = d := by
  rw [h.ids]
  refine ⟨?_, ?_⟩
  · intro h
    obtain ⟨g, hg, rfl, rfl⟩ := h
    exact ⟨⟨g, hg, rfl⟩, rfl⟩
  · intro h
    obtain ⟨⟨g, hg, rfl⟩, rfl⟩ := h
    exact ⟨g, hg, rfl, rfl⟩

theorem Describes.exists_pattern (h : scope.Describes features) {target : String} :
    (∃ g ∈ features, (Reference.pattern target).LeadsTo g ∧ g.id = d)
      ↔ scope.patterns.contains target = true ∧ target = d := by
  rw [h.patterns]
  simp only [Reference.LeadsTo, ← Feature.isPattern_iff]
  refine ⟨?_, ?_⟩
  · intro h
    obtain ⟨g, hg, ⟨rfl, isPattern⟩, rfl⟩ := h
    exact ⟨⟨g, hg, rfl, isPattern⟩, rfl⟩
  · intro h
    obtain ⟨⟨g, hg, rfl, isPattern⟩, rfl⟩ := h
    exact ⟨g, hg, ⟨rfl, isPattern⟩, rfl⟩

/-- A reference is resolved to the features it leads to. -/
theorem Describes.resolve_eq_some (h : scope.Describes features) :
    scope.resolve f r = .ok (some d) ↔ ∃ g ∈ features, r.LeadsTo g ∧ g.id = d := by
  cases r with
  | dep target =>
    refine Iff.trans ?_ h.exists_id.symm
    rw [resolve]
    split
    · next known => simp [known]
    · next unknown => simp [unknown]
  | profile name =>
    refine Iff.trans ?_ (h.profiles name d)
    rw [resolve]
    cases scope.profiles.find? name <;> simp
  | pattern target =>
    refine Iff.trans ?_ h.exists_pattern.symm
    rw [resolve]
    split
    · next known => simp [known]
    · next unknown => simp [unknown]
  | output field name =>
    refine Iff.trans ?_ (h.outputs name d)
    rw [resolve]
    cases scope.outputs.find? name <;> simp
  | creator field target =>
    refine Iff.trans ?_ h.exists_id.symm
    rw [resolve]
    split
    · next known => simp [known]
    · next unknown => simp [unknown]
  | free field query =>
    rw [resolve]
    split <;> simp [Reference.LeadsTo]

/-- A free query is let pass if there are explicit dependencies. -/
theorem resolve_eq_none : scope.resolve f r = .ok none ↔ r.IsFree ∧ f.deps ≠ [] := by
  cases r with
  | dep target | pattern target | creator field target =>
    rw [resolve]
    split <;> simp [Reference.IsFree]
  | profile name =>
    rw [resolve]
    cases scope.profiles.find? name <;> simp [Reference.IsFree]
  | output field name =>
    rw [resolve]
    cases scope.outputs.find? name <;> simp [Reference.IsFree]
  | free field query =>
    rw [resolve]
    split
    · next none_given => simp [List.isEmpty_iff.1 none_given]
    · next given => simpa [Reference.IsFree] using given

theorem Describes.exists_resolve_iff (h : scope.Describes features) :
    (∃ target, scope.resolve f r = .ok target)
      ↔ (∃ g ∈ features, r.LeadsTo g) ∨ r.IsFree ∧ f.deps ≠ [] := by
  rw [Option.exists, resolve_eq_none, or_comm]
  simp only [h.resolve_eq_some]
  refine or_congr ?_ Iff.rfl
  refine ⟨?_, ?_⟩
  · intro h
    obtain ⟨d, g, hg, leads, -⟩ := h
    exact ⟨g, hg, leads⟩
  · intro h
    obtain ⟨g, hg, leads⟩ := h
    exact ⟨g.id, g, hg, leads, rfl⟩

-- ========================================================== dependencies

/-- The dependencies of a feature are the features it refers to. -/
theorem Describes.mem_dependencies (h : scope.Describes features) {s : TextSet}
    (found : scope.dependencies f = .ok s) : d ∈ s.keys ↔ RefersTo features f d := by
  obtain ⟨targets, resolved, e⟩ := Checked.bind_eq_ok.1 found
  obtain rfl := Except.ok.inj e
  rw [TextSet.mem_keys_ofList, List.mem_filterMap]
  simp only [Checked.mem_of_mapM_eq_ok resolved, id_eq, exists_eq_right, h.resolve_eq_some]
  refine ⟨?_, ?_⟩
  · intro h
    obtain ⟨r, listed, leads⟩ := h
    exact ⟨r, Feature.mentions_of_mem_references listed, leads⟩
  · intro h
    obtain ⟨r, mentions, g, hg, leads, e⟩ := h
    obtain ⟨r', listed, rfl | ⟨free, -⟩⟩ := mentions.listed
    · exact ⟨_, listed, g, hg, leads, e⟩
    · exact absurd free leads.not_isFree

/-- A feature has dependencies if what it mentions is in order. -/
theorem Describes.exists_dependencies_iff (h : scope.Describes features) :
    (∃ s, scope.dependencies f = .ok s)
      ↔ (∀ r, f.Mentions r → ¬ r.IsFree → ∃ g ∈ features, r.LeadsTo g)
        ∧ (f.deps = [] → ∀ r, f.Mentions r → ¬ r.IsFree) := by
  have passes : (∃ s, scope.dependencies f = .ok s)
      ↔ ∀ r ∈ f.references, ∃ target, scope.resolve f r = .ok target := by
    rw [← Checked.exists_mapM_eq_ok]
    exact ⟨fun ⟨_, h⟩ => (Checked.bind_eq_ok.1 h).imp fun _ => And.left,
      fun ⟨_, h⟩ => ⟨_, Checked.bind_eq_ok.2 ⟨_, h, rfl⟩⟩⟩
  rw [passes]
  simp only [h.exists_resolve_iff]
  refine ⟨?_, ?_⟩
  · intro all
    refine ⟨fun r mentions bound => ?_, fun none_given r mentions free => ?_⟩
    · obtain ⟨r', listed, rfl | ⟨free, -⟩⟩ := mentions.listed
      · exact (all _ listed).resolve_right fun h => bound h.1
      · exact absurd free bound
    · obtain ⟨r', listed, same⟩ := mentions.listed
      have free' : r'.IsFree := same.elim (fun e => e ▸ free) And.right
      rcases all r' listed with ⟨g, -, leads⟩ | ⟨-, given⟩
      · exact leads.not_isFree free'
      · exact given none_given
  · intro h r listed
    obtain ⟨bound, anchored⟩ := h
    have mentions := Feature.mentions_of_mem_references listed
    by_cases free : r.IsFree
    · exact Or.inr ⟨free, fun none_given => anchored none_given r mentions free⟩
    · exact Or.inl (bound r mentions free)

end Scope

-- ================================================================= graphs

namespace Graph

variable {features : List Feature} {g : Graph}

theorem build_eq_ok :
    build features = .ok g
      ↔ ∃ scope edges, Scope.collect features = .ok scope
        ∧ features.mapM (edgesInto scope) = .ok edges
        ∧ g = ⟨features.map Feature.id, edges.flatten⟩ := by
  unfold build
  simp only [Checked.bind_eq_ok]
  refine ⟨?_, ?_⟩
  · intro h
    obtain ⟨scope, collected, edges, found, h⟩ := h
    exact ⟨scope, edges, collected, found, (Except.ok.inj h).symm⟩
  · intro h
    obtain ⟨scope, edges, collected, found, rfl⟩ := h
    exact ⟨scope, collected, edges, found, rfl⟩

theorem edgesInto_eq_ok {scope : Scope} {f : Feature} {es : List Edge} :
    edgesInto scope f = .ok es
      ↔ ∃ s, scope.dependencies f = .ok s ∧ es = s.keys.map fun d => ⟨d, f.id⟩ := by
  unfold edgesInto
  rw [Checked.bind_eq_ok]
  exact exists_congr fun s => and_congr_right fun _ =>
    ⟨fun h => (Except.ok.inj h).symm, fun h => congrArg Except.ok h.symm⟩

/-- Features have a graph if they are well referenced. -/
theorem exists_build_iff : (∃ g, build features = .ok g) ↔ WellReferenced features := by
  simp only [build_eq_ok]
  refine ⟨?_, ?_⟩
  · intro h
    obtain ⟨g, scope, edges, collected, found, -⟩ := h
    have describes := Scope.describes_collect collected
    have fine : ∀ f ∈ features, ∃ s, scope.dependencies f = .ok s := by
      intro f hf
      obtain ⟨es, h⟩ := Checked.exists_mapM_eq_ok.1 ⟨edges, found⟩ f hf
      exact (edgesInto_eq_ok.1 h).imp fun _ => And.left
    exact {
      toWellNamed := Scope.exists_collect_iff.1 ⟨scope, collected⟩
      bound := fun f hf => (describes.exists_dependencies_iff.1 (fine f hf)).1
      anchored := fun f hf => (describes.exists_dependencies_iff.1 (fine f hf)).2 }
  · intro wr
    obtain ⟨scope, collected⟩ := Scope.exists_collect_iff.2 wr.toWellNamed
    have describes := Scope.describes_collect collected
    have fine : ∀ f ∈ features, ∃ es, edgesInto scope f = .ok es := by
      intro f hf
      obtain ⟨s, h⟩ := describes.exists_dependencies_iff.2 ⟨wr.bound f hf, wr.anchored f hf⟩
      exact ⟨_, edgesInto_eq_ok.2 ⟨s, h, rfl⟩⟩
    obtain ⟨edges, found⟩ := Checked.exists_mapM_eq_ok.2 fine
    exact ⟨_, scope, edges, collected, found, rfl⟩

/-- The edges of a graph lead, feature by feature, from what the feature
refers to, by increasing id. -/
theorem edges_of_build (h : build features = .ok g) :
    ∃ deps : Feature → List String,
      (∀ f ∈ features, (deps f).Pairwise (· < ·) ∧ ∀ d, d ∈ deps f ↔ RefersTo features f d)
        ∧ g.edges = features.flatMap fun f => (deps f).map fun d => ⟨d, f.id⟩ := by
  obtain ⟨scope, edges, collected, found, rfl⟩ := build_eq_ok.1 h
  have describes := Scope.describes_collect collected
  let deps : Feature → List String := fun f =>
    match scope.dependencies f with
    | .ok s => s.keys
    | .error _ => []
  have deps_eq : ∀ f s, scope.dependencies f = .ok s → deps f = s.keys := by
    intro f s hs
    show (match scope.dependencies f with | .ok s => s.keys | .error _ => []) = _
    rw [hs]
  refine ⟨deps, fun f hf => ?_, ?_⟩
  · obtain ⟨es, hes⟩ := Checked.exists_mapM_eq_ok.1 ⟨edges, found⟩ f hf
    obtain ⟨s, hs, -⟩ := edgesInto_eq_ok.1 hes
    rw [deps_eq f s hs]
    exact ⟨s.keys_increasing, fun d => describes.mem_dependencies hs⟩
  · have each : edges.map id = features.map fun f => (deps f).map fun d => ⟨d, f.id⟩ := by
      refine Checked.map_of_mapM_eq_ok found fun f _ es hes => ?_
      obtain ⟨s, hs, rfl⟩ := edgesInto_eq_ok.1 hes
      rw [deps_eq f s hs, id_eq]
    rw [List.flatMap_def, ← each, List.map_id]

/-- A graph has no edge twice. -/
theorem nodup_edges {deps : Feature → List String} (ids : (features.map Feature.id).Nodup)
    (increasing : ∀ f ∈ features, (deps f).Pairwise (· < ·)) :
    (features.flatMap fun f => (deps f).map fun d => (⟨d, f.id⟩ : Edge)).Nodup := by
  rw [List.nodup_flatMap]
  refine ⟨?_, ?_⟩
  · intro f hf
    refine List.Nodup.map (fun a b e => congrArg Edge.dependency e) ?_
    exact SortedMap.nodup_of_increasing (increasing f hf)
  · refine (List.pairwise_map.1 ids).imp fun {f f'} differ => ?_
    show List.Disjoint _ _
    rw [List.disjoint_left]
    intro e he he'
    obtain ⟨d, -, rfl⟩ := List.mem_map.1 he
    obtain ⟨d', -, e⟩ := List.mem_map.1 he'
    exact differ (congrArg Edge.dependent e).symm

/-- The graph of a list of features exists exactly if they are well
referenced. Its nodes are their ids as declared, and its edges lead, feature
by feature, from what the feature refers to, by increasing id, none of them
twice. -/
theorem build_computes_references (features : List Feature) :
    ((∃ g, build features = .ok g) ↔ WellReferenced features)
      ∧ ∀ g, build features = .ok g →
        g.nodes = features.map Feature.id
          ∧ (∃ deps : Feature → List String,
            (∀ f ∈ features, (deps f).Pairwise (· < ·) ∧ ∀ d, d ∈ deps f ↔ RefersTo features f d)
              ∧ g.edges = features.flatMap fun f => (deps f).map fun d => ⟨d, f.id⟩)
          ∧ g.edges.Nodup := by
  refine ⟨exists_build_iff, fun g h => ⟨?_, edges_of_build h, ?_⟩⟩
  · obtain ⟨scope, edges, -, -, rfl⟩ := build_eq_ok.1 h
    rfl
  · obtain ⟨deps, exact_deps, e⟩ := edges_of_build h
    rw [e]
    exact nodup_edges (exists_build_iff.1 ⟨g, h⟩).ids fun f hf => (exact_deps f hf).1

end Graph
end PartPlan
