/-
The text of a plan, read back. A plan is written with its features, which are nested
as deep as their selectors are, and everything else in it is shallow. So if its
brackets are too deep for a reader, they are so in a feature, and a feature is refused
unless it is readable in all its parts: the text stands for nothing then, to any reader.
If its brackets are few enough, it stands for the plan to a reader that gives the
numbers in the plan back.
-/
import PartPlan.Proofs.Document.Records

namespace PartPlan

open Json (depth_map_le depth_obj_le depth_record_le maxDepth)

-- ================================================================== depths

theorem Edge.depth_le (e : Edge) : e.toJson.depth ≤ 1 :=
  depth_record_le.2 (by simp [Json.depth])

theorem Graph.depth_le (g : Graph) : g.toJson.depth ≤ 3 := by
  have nodes : (Json.arr (g.nodes.map .str)).depth ≤ 2 :=
    depth_map_le.2 fun _ _ => Nat.zero_le _
  have edges : (Json.arr (g.edges.map Edge.toJson)).depth ≤ 2 :=
    depth_map_le.2 fun e _ => e.depth_le
  exact depth_record_le.2 (by simp [nodes, edges])

theorem Diagnostic.depth_le (d : Diagnostic) : d.toJson.depth ≤ 1 :=
  depth_record_le.2 (by simp [Json.depth])

-- ================================================================ features

/-- A feature that stands in too many brackets is refused. -/
theorem Feature.depth_of_reread {r : Number.Rounding} {f g : Feature} {n : ℕ}
    (finite : f.IsFinite) (inside : n ≤ maxDepth)
    (given : ofJson? (f.toJson.reread r n) = some g) : n + f.toJson.depth ≤ maxDepth := by
  obtain ⟨w, whole, -⟩ := Option.bind_eq_some_iff.1 given
  exact (f.reads finite).textual.sound.depth_le_of_readable inside (Json.of_whole? whole).1

namespace BuildPlan

variable {r : Number.Rounding} {p : BuildPlan}

/-- A plan is as deep as its features are, in their list in the record of the plan; the
rest of it is shallow. -/
theorem depth_le_iff {n : ℕ} (few : 3 ≤ n) :
    p.toJson.depth ≤ n + 1 ↔ ∀ f ∈ p.features, f.toJson.depth + 1 ≤ n := by
  obtain ⟨m, rfl⟩ : ∃ m, n = m + 1 := ⟨n - 1, by omega⟩
  have text (s : String) : (Json.str s).depth ≤ m + 1 := Nat.zero_le _
  have order : (Json.arr (p.order.map .str)).depth ≤ m + 1 :=
    depth_map_le.2 fun _ _ => Nat.zero_le _
  have graph : p.graph.toJson.depth ≤ m + 1 := p.graph.depth_le.trans few
  have hashes : (Json.ofMap .str p.hashes).depth ≤ m + 1 :=
    depth_obj_le.2 (List.forall_mem_map.2 fun _ _ => Nat.zero_le _)
  have diagnostics : ∀ v ∈ Json.nonEmpty (p.diagnostics.map Diagnostic.toJson), v.depth ≤ m + 1 := by
    intro v hv
    unfold Json.nonEmpty at hv
    split at hv
    · cases hv
    · cases hv
      exact depth_map_le.2 fun d _ => d.depth_le.trans (by omega)
  have features : (Json.arr (p.features.map Feature.toJson)).depth ≤ m + 1
      ↔ ∀ f ∈ p.features, f.toJson.depth + 1 ≤ m + 1 := by
    simp only [depth_map_le, Nat.add_le_add_iff_right]
  refine depth_record_le.trans ?_
  simp only [List.forall_mem_cons, Option.mem_def, Option.some.injEq, forall_eq']
  rw [features]
  exact ⟨fun h => h.2.2.2.2.1,
    fun h => ⟨text _, text _, order, graph, h, hashes, diagnostics, List.forall_mem_nil _⟩⟩

/-- The features of a plan that is read are read one by one. -/
theorem features_of_reread {q : BuildPlan} (given : ofJson? (p.toJson.reread r 0) = some q) :
    (p.features.mapM fun f => Feature.ofJson? (f.toJson.reread r 2)) = some q.features := by
  obtain ⟨fs, contents, given⟩ := Option.bind_eq_some_iff.1 given
  have written := contents.symm.trans
    (Json.fields?_reread_record r (n := 0) (by decide) (by simp))
  obtain rfl := Option.some.inj written
  simp only [List.map_cons, List.map_nil, Option.map_some, Option.bind_eq_bind,
    Option.bind_eq_some_iff] at given
  obtain ⟨_, _, _, _, _, _, _, _, read, items, _, _, _, _, same⟩ := given
  cases same
  rw [Json.required, Option.bind_some, Json.reread_arr r (by decide), List.map_map,
    Json.list?, List.mapM_map] at items
  exact items

/-- From its text a plan is read if its brackets are not too deep and its numbers are
given back. -/
theorem ofJson?_reread (finite : p.IsFinite) (shallow : p.toJson.depth ≤ maxDepth)
    (returned : ∀ x ∈ p.toJson.numbers, r.Returns x) :
    ofJson? (p.toJson.reread r 0) = some p := by
  have reads := p.reads finite
  rw [reads.textual.sound.reread_eq_self (by omega) returned, reads.read]

/-- If its brackets are too deep, nothing is read. -/
theorem ofJson?_reread_of_lt (finite : p.IsFinite) (deep : maxDepth < p.toJson.depth) :
    ofJson? (p.toJson.reread r 0) = none := by
  refine Option.eq_none_iff_forall_ne_some.2 fun q given => not_le.2 deep ?_
  refine (depth_le_iff (n := 126) (by decide)).2 fun f hf => ?_
  obtain ⟨g, read⟩ := Json.exists_of_mapM (features_of_reread given) f hf
  have := Feature.depth_of_reread (finite f hf) (by decide) read
  unfold maxDepth at this
  omega

end BuildPlan
end PartPlan
