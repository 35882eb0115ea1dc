/-
Graphs of lists of features that have to do with each other. What the graph of a
list is depends on little: on which features there are, on the order in which
they are declared, and on what each of them declares and refers to. So features
that are declared in another order have the same edges (`build_perm`), a list
from which some features are left out that the others do not refer to has what
remains of the graph (`build_restrict`), and whatever else is different about
two features, their graphs are not (`build_congr`).
-/
import Mathlib.Data.List.Flatten
import PartPlan.Proofs.Graph.Build
import PartPlan.Proofs.Graph.Restriction

namespace PartPlan

variable {features features' : List Feature} {f f' : Feature} {keep : String → Bool}

-- ============================================================== one graph

namespace Graph

variable {g : Graph}

theorem nodes_of_build (h : build features = .ok g) : g.nodes = features.map Feature.id := by
  obtain ⟨scope, edges, -, -, rfl⟩ := build_eq_ok.1 h
  rfl

/-- The edges of a graph are the references of its features. -/
theorem hasEdge_of_build (h : build features = .ok g) {d x : String} :
    g.HasEdge d x ↔ ∃ f ∈ features, f.id = x ∧ RefersTo features f d := by
  obtain ⟨deps, exact_deps, edges⟩ := edges_of_build h
  unfold HasEdge
  rw [edges, List.mem_flatMap]
  constructor
  · intro member
    obtain ⟨f, hf, member⟩ := member
    obtain ⟨d', hd, e⟩ := List.mem_map.1 member
    cases e
    exact ⟨f, hf, rfl, ((exact_deps f hf).2 d).1 hd⟩
  · intro refers
    obtain ⟨f, hf, rfl, refers⟩ := refers
    exact ⟨f, hf, List.mem_map_of_mem (((exact_deps f hf).2 d).2 refers)⟩

theorem nodup_edges_of_build (h : build features = .ok g) : g.edges.Nodup := by
  obtain ⟨deps, exact_deps, edges⟩ := edges_of_build h
  rw [edges]
  exact nodup_edges (exists_build_iff.1 ⟨g, h⟩).ids fun f hf => (exact_deps f hf).1

theorem wellFormed_of_build (h : build features = .ok g) : g.WellFormed where
  nodup := by
    rw [nodes_of_build h]
    exact (exists_build_iff.1 ⟨g, h⟩).ids
  ends := by
    intro a b edge
    obtain ⟨f, hf, rfl, -, -, d, hd, -, rfl⟩ := (hasEdge_of_build h).1 edge
    rw [nodes_of_build h]
    exact ⟨List.mem_map_of_mem hd, List.mem_map_of_mem hf⟩

end Graph

section Failure

open Checked (Fails)

variable {vs : List String}

theorem Scope.fails_declare {duplicate : String → String → String → GraphError}
    (other : ∀ name first second, duplicate name first second ≠ .cycle vs) (owner : String)
    (names : List String) (owners : SortedMap String) :
    Fails (· ≠ .cycle vs) (declare duplicate owner names owners) := by
  refine Fails.foldlM (fun owners name _ => ?_) owners
  cases owners.find? name with
  | some first => exact Fails.error (other name first owner)
  | none => exact Fails.ok _

theorem Scope.fails_add (scope : Scope) (f : Feature) (index : ℕ) :
    Fails (· ≠ .cycle vs) (scope.add f index) := by
  refine Fails.check (by simp) (Fails.check (by simp) ?_)
  refine (fails_declare (by simp) _ _ _).bind fun _ => ?_
  exact (fails_declare (by simp) _ _ _).bind fun _ => Fails.ok _

theorem Scope.fails_resolve (scope : Scope) (f : Feature) (r : Reference) :
    Fails (· ≠ .cycle vs) (scope.resolve f r) := by
  cases r with
  | dep id | pattern id | creator field id | free field query =>
    rw [resolve]
    split
    · first | exact Fails.ok _ | exact Fails.error (by simp)
    · first | exact Fails.ok _ | exact Fails.error (by simp)
  | profile name =>
    rw [resolve]
    cases scope.profiles.find? name with
    | some sketch => exact Fails.ok _
    | none => exact Fails.error (by simp)
  | output field name =>
    rw [resolve]
    cases scope.outputs.find? name with
    | some producer => exact Fails.ok _
    | none => exact Fails.error (by simp)

/-- It is not in building a graph that a cycle is found. -/
theorem Graph.build_ne_cycle (features : List Feature) : build features ≠ .error (.cycle vs) := by
  have other : Fails (· ≠ .cycle vs) (build features) := by
    refine Fails.bind (Fails.foldlM (fun scope p _ => scope.fails_add p.1 p.2) _) fun scope => ?_
    refine Fails.bind (Fails.mapM fun f _ => ?_) fun edges => Fails.ok _
    refine Fails.bind (Fails.bind (Fails.mapM fun r _ => scope.fails_resolve f r) ?_) ?_
    · exact fun found => Fails.ok _
    · exact fun deps => Fails.ok _
  exact fun cyclic => other _ cyclic rfl

end Failure

-- ========================================================== another order

theorem WellReferenced.perm (perm : features.Perm features') (h : WellReferenced features) :
    WellReferenced features' where
  not_blank f hf := h.not_blank f (perm.mem_iff.2 hf)
  ids := (perm.map Feature.id).nodup_iff.1 h.ids
  profiles := (perm.flatMap_right Feature.declaredProfiles).nodup_iff.1 h.profiles
  outputs := (perm.flatMap_right Feature.outputs).nodup_iff.1 h.outputs
  bound f hf r mentions named := by
    obtain ⟨g, hg, leads⟩ := h.bound f (perm.mem_iff.2 hf) r mentions named
    exact ⟨g, perm.mem_iff.1 hg, leads⟩
  anchored f hf := h.anchored f (perm.mem_iff.2 hf)

theorem refersTo_perm (perm : features.Perm features') {d : String} :
    RefersTo features f d ↔ RefersTo features' f d :=
  ⟨.mono perm.subset, .mono perm.symm.subset⟩

/-- Features that are declared in another order have the same edges. -/
theorem Graph.build_perm (perm : features.Perm features') {g : Graph}
    (h : build features = .ok g) : ∃ g', build features' = .ok g' ∧ g'.edges.Perm g.edges := by
  obtain ⟨g', h'⟩ := exists_build_iff.2 ((exists_build_iff.1 ⟨g, h⟩).perm perm)
  refine ⟨g', h', ?_⟩
  refine (List.perm_ext_iff_of_nodup (nodup_edges_of_build h') (nodup_edges_of_build h)).2 ?_
  intro e
  show g'.HasEdge e.dependency e.dependent ↔ g.HasEdge e.dependency e.dependent
  rw [hasEdge_of_build h, hasEdge_of_build h']
  simp only [perm.mem_iff, refersTo_perm perm]

-- ========================================================= fewer features

/-- The features that are kept. -/
def Feature.kept (keep : String → Bool) (features : List Feature) : List Feature :=
  features.filter fun f => keep f.id

theorem Feature.mem_kept : f ∈ Feature.kept keep features ↔ f ∈ features ∧ keep f.id = true :=
  List.mem_filter

theorem Feature.map_id_kept (keep : String → Bool) (features : List Feature) :
    (Feature.kept keep features).map Feature.id = (features.map Feature.id).filter keep :=
  List.filter_map.symm

/-- What is left refers to the same features, if they are left too. -/
theorem refersTo_kept {d : String} (left : RefersTo features f d → keep d = true) :
    RefersTo (Feature.kept keep features) f d ↔ RefersTo features f d := by
  constructor
  · exact RefersTo.mono (List.filter_subset_self _)
  · intro refers
    have kept := left refers
    obtain ⟨r, mentions, g, hg, leads, rfl⟩ := refers
    exact ⟨r, mentions, g, Feature.mem_kept.2 ⟨hg, kept⟩, leads, rfl⟩

theorem WellReferenced.kept (h : WellReferenced features)
    (closed : ∀ f ∈ features, keep f.id = true → ∀ d, RefersTo features f d → keep d = true) :
    WellReferenced (Feature.kept keep features) := by
  have fewer : (Feature.kept keep features).Sublist features := List.filter_sublist
  refine ⟨⟨fun f hf => ?_, ?_, ?_, ?_⟩, fun f hf r mentions named => ?_, fun f hf => ?_⟩
  · exact h.not_blank f (fewer.subset hf)
  · exact h.ids.sublist (fewer.map _)
  · exact h.profiles.sublist (fewer.flatMap _)
  · exact h.outputs.sublist (fewer.flatMap _)
  · obtain ⟨hf, kept⟩ := Feature.mem_kept.1 hf
    obtain ⟨g, hg, leads⟩ := h.bound f hf r mentions named
    have kept' := closed f hf kept g.id ⟨r, mentions, g, hg, leads, rfl⟩
    exact ⟨g, Feature.mem_kept.2 ⟨hg, kept'⟩, leads⟩
  · exact h.anchored f (fewer.subset hf)

theorem eq_of_increasing {l l' : List String} (h : l.Pairwise (· < ·)) (h' : l'.Pairwise (· < ·))
    (same : ∀ s, s ∈ l ↔ s ∈ l') : l = l' := by
  have perm : l.Perm l' := (List.perm_ext_iff_of_nodup (SortedMap.nodup_of_increasing h)
    (SortedMap.nodup_of_increasing h')).2 same
  refine perm.eq_of_pairwise (fun a b _ _ less greater => ?_) h h'
  exact absurd (String.lt_trans less greater) (String.lt_irrefl a)

theorem filter_flatMap_eq {α β : Type} {l : List α} {p : α → Bool} {q : β → Bool}
    {each each' : α → List β}
    (h : ∀ a ∈ l, (each a).filter q = if p a = true then each' a else []) :
    (l.flatMap each).filter q = (l.filter p).flatMap each' := by
  induction l with
  | nil => rfl
  | cons a l ih =>
    obtain ⟨here, later⟩ := List.forall_mem_cons.1 h
    rw [List.flatMap_cons, List.filter_append, here, ih later]
    by_cases kept : p a = true
    · rw [if_pos kept, List.filter_cons_of_pos kept, List.flatMap_cons]
    · rw [if_neg kept, List.filter_cons_of_neg kept, List.nil_append]

/-- If what is kept refers to nothing that is not, its graph is what is left of
the graph. -/
theorem Graph.build_restrict {g : Graph} (h : build features = .ok g) (closed : g.Closed keep) :
    build (Feature.kept keep features) = .ok (g.restrict keep) := by
  have closed' : ∀ f ∈ features, keep f.id = true → ∀ d, RefersTo features f d → keep d = true :=
    fun f hf kept d refers => closed d f.id ((hasEdge_of_build h).2 ⟨f, hf, rfl, refers⟩) kept
  obtain ⟨g', h'⟩ := exists_build_iff.2 ((exists_build_iff.1 ⟨g, h⟩).kept closed')
  obtain ⟨deps, exact_deps, edges⟩ := edges_of_build h
  obtain ⟨deps', exact_deps', edges'⟩ := edges_of_build h'
  have same_deps : ∀ f ∈ features, keep f.id = true → deps' f = deps f := by
    intro f hf kept
    obtain ⟨increasing, refers⟩ := exact_deps f hf
    obtain ⟨increasing', refers'⟩ := exact_deps' f (Feature.mem_kept.2 ⟨hf, kept⟩)
    -- both lists are increasing, so it is enough that they have the same members
    refine eq_of_increasing increasing' increasing fun d => ?_
    rw [refers', refers, refersTo_kept (closed' f hf kept d)]
  have same_edges : (g.restrict keep).edges = g'.edges := by
    rw [edges', restrict, edges]
    refine filter_flatMap_eq fun f hf => ?_
    split
    · next kept =>
      rw [same_deps f hf kept, List.filter_eq_self]
      intro e he
      obtain ⟨d, hd, rfl⟩ := List.mem_map.1 he
      rw [Bool.and_eq_true]
      exact ⟨closed' f hf kept d (((exact_deps f hf).2 d).1 hd), kept⟩
    · next cut =>
      rw [List.filter_eq_nil_iff]
      intro e he
      obtain ⟨d, -, rfl⟩ := List.mem_map.1 he
      simp [cut]
  have same_nodes : (g.restrict keep).nodes = g'.nodes := by
    rw [nodes_of_build h', restrict, nodes_of_build h, Feature.map_id_kept]
  rw [h', Except.ok.injEq]
  exact (congrArg₂ Graph.mk same_nodes same_edges).symm

-- ======================================================= the same interface

/-- Two features have one id, and declare and refer to the same. -/
structure Feature.SameInterface (f g : Feature) : Prop where
  id : f.id = g.id
  isPattern : f.isPattern = g.isPattern
  profiles : f.declaredProfiles = g.declaredProfiles
  outputs : f.outputs = g.outputs
  deps : f.deps = g.deps
  references : f.references = g.references

namespace Feature.SameInterface

theorem add (same : f.SameInterface f') (scope : Scope) (index : Nat) :
    scope.add f index = scope.add f' index := by
  unfold Scope.add
  rw [same.id, same.profiles, same.outputs, same.isPattern]

theorem resolve (same : f.SameInterface f') (scope : Scope) :
    scope.resolve f = scope.resolve f' := by
  funext r
  cases r <;> simp only [Scope.resolve, same.id, same.deps]

theorem edgesInto (same : f.SameInterface f') (scope : Scope) :
    Graph.edgesInto scope f = Graph.edgesInto scope f' := by
  unfold Graph.edgesInto Scope.dependencies
  rw [same.references, same.resolve, same.id]

end Feature.SameInterface

theorem Scope.collect_congr (same : List.Forall₂ Feature.SameInterface features features') :
    collect features = collect features' := by
  have onward : ∀ (scope : Scope) (index : Nat),
      (features.zipIdx index).foldlM (fun scope p => scope.add p.1 p.2) scope
        = (features'.zipIdx index).foldlM (fun scope p => scope.add p.1 p.2) scope := by
    induction same with
    | nil => exact fun _ _ => rfl
    | @cons f f' _ _ here _ ih =>
      intro scope index
      rw [List.zipIdx_cons, List.zipIdx_cons, List.foldlM_cons, List.foldlM_cons,
        here.add scope index]
      exact congrArg _ (funext fun next => ih next (index + 1))
  exact onward empty 0

/-- The graph of features depends on nothing but their interfaces. -/
theorem Graph.build_congr (same : List.Forall₂ Feature.SameInterface features features') :
    build features = build features' := by
  have stages (scope : Scope) : features.map Feature.id = features'.map Feature.id
      ∧ features.mapM (edgesInto scope) = features'.mapM (edgesInto scope) := by
    induction same with
    | nil => exact ⟨rfl, rfl⟩
    | cons here _ ih =>
      rw [List.map_cons, List.map_cons, List.mapM_cons, List.mapM_cons, here.id, here.edgesInto,
        ih.1, ih.2]
      exact ⟨rfl, rfl⟩
  unfold build
  rw [Scope.collect_congr same]
  refine congrArg _ (funext fun scope => ?_)
  rw [(stages scope).1, (stages scope).2]

end PartPlan
