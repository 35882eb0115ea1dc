/-
What decides about a build order. A greedy schedule leaves no choice, so two of
one length are the same (`Greedy.deterministic`), and to find the order of a
graph it is enough to name a greedy schedule of all its nodes (`order_eq_ok`).
Nodes that are declared in an order which their edges follow are such a schedule
themselves.

Whether there is an order at all depends on the edges alone and not on where
the nodes are declared (`WellFormed.exists_order_iff`).
-/
import PartPlan.Proofs.Graph.Order

namespace PartPlan
namespace Graph

variable {g : Graph} {o o' done : List String}

-- ============================================================= uniqueness

/-- At most one node goes next. -/
theorem GoesNext.deterministic {x y : String} (hx : g.GoesNext done x) (hy : g.GoesNext done y) :
    x = y := by
  have before := hx.earliest y hy.ready
  have after := hy.earliest x hx.ready
  exact (List.idxOf_inj hx.ready.node).1 (Nat.le_antisymm before after)

/-- Two greedy schedules of the same length are the same. -/
theorem Greedy.deterministic (h : g.Greedy o) (h' : g.Greedy o') (same : o.length = o'.length) :
    o = o' := by
  have upto : ∀ k ≤ o.length, o.take k = o'.take k := by
    intro k
    induction k with
    | zero => exact fun _ => rfl
    | succ k ih =>
      intro hk
      have earlier := ih (by omega)
      have next := h k (by omega)
      have next' := h' k (by omega)
      rw [← earlier] at next'
      rw [List.take_succ_eq_append_getElem (by omega), List.take_succ_eq_append_getElem (by omega),
        earlier, next.deterministic next']
  have whole := upto o.length le_rfl
  rwa [List.take_length, same, List.take_length] at whole

/-- A well-formed graph has a greedy schedule of all its nodes for its order,
or a cycle is reported. -/
theorem WellFormed.order_cases (wf : g.WellFormed) :
    (∃ o, g.order = .ok o ∧ g.Greedy o ∧ o.Perm g.nodes)
      ∨ ∃ vs, g.order = .error (.cycle vs) ∧ g.IsCycle vs := by
  have outcome := outcome_order g
  generalize g.order = result at outcome ⊢
  cases outcome with
  | @repeated id twice =>
    have once := List.nodup_iff_count.1 wf.nodup id
    omega
  | stray nodup edge unknown => exact absurd ⟨_, _, edge, unknown⟩ wf.no_stray
  | @ordered o _ greedy perm => exact Or.inl ⟨o, rfl, greedy, perm⟩
  | @cyclic vs _ cycle => exact Or.inr ⟨vs, rfl, cycle⟩

/-- The order of a graph is its greedy schedule. -/
theorem order_eq_ok : g.order = .ok o ↔ g.WellFormed ∧ g.Greedy o ∧ o.Perm g.nodes := by
  constructor
  · intro h
    have outcome := outcome_order g
    rw [h] at outcome
    cases outcome with
    | ordered wf greedy perm => exact ⟨wf, greedy, perm⟩
  · intro h
    obtain ⟨wf, greedy, perm⟩ := h
    rcases wf.order_cases with ⟨o', ordered, greedy', perm'⟩ | ⟨vs, -, cycle⟩
    · rw [ordered, greedy'.deterministic greedy (perm'.length_eq.trans perm.length_eq.symm)]
    · exact absurd (greedy.isLinearExtension wf perm).acyclic cycle.not_acyclic

/-- Nodes that are declared as their edges demand are built as they are
declared. -/
theorem order_eq_nodes (wf : g.WellFormed)
    (forward : ∀ a b, g.HasEdge a b → g.nodes.idxOf a < g.nodes.idxOf b) :
    g.order = .ok g.nodes := by
  refine order_eq_ok.2 ⟨wf, fun k hk => ?_, List.Perm.refl _⟩
  have place : g.nodes.idxOf g.nodes[k] = k := wf.nodup.idxOf_getElem k hk
  have done_iff : ∀ x ∈ g.nodes, x ∈ g.nodes.take k ↔ g.nodes.idxOf x < k :=
    fun x hx => List.mem_take_iff_idxOf_lt hx
  refine ⟨⟨List.getElem_mem hk, fun done => ?_, fun d edge => ?_⟩, fun y ready => ?_⟩
  · have := (done_iff _ (List.getElem_mem hk)).1 done
    omega
  · rw [done_iff d (wf.ends edge).1]
    have := forward d _ edge
    omega
  · have waiting := mt (done_iff y ready.node).2 ready.fresh
    omega

-- ============================================================== existence

/-- A well-formed graph has an order exactly if it has no cycle. -/
theorem WellFormed.exists_order_iff (wf : g.WellFormed) :
    (∃ o, g.order = .ok o) ↔ g.Acyclic := by
  constructor
  · intro h
    obtain ⟨o, h⟩ := h
    obtain ⟨-, greedy, perm⟩ := order_eq_ok.1 h
    exact (greedy.isLinearExtension wf perm).acyclic
  · intro acyclic
    rcases wf.order_cases with ⟨o, ordered, -⟩ | ⟨vs, -, cycle⟩
    · exact ⟨o, ordered⟩
    · exact absurd acyclic cycle.not_acyclic

/-- A cycle is reported of a well-formed graph exactly if it has one. -/
theorem WellFormed.exists_cycle_iff (wf : g.WellFormed) :
    (∃ vs, g.order = .error (.cycle vs)) ↔ ¬ g.Acyclic := by
  rw [← wf.exists_order_iff]
  rcases wf.order_cases with ⟨o, ordered, -⟩ | ⟨vs, reported, -⟩
  · simp [ordered]
  · simp [reported]

/-- Graphs with the same edges have a cycle both or neither. -/
theorem acyclic_congr {g' : Graph} (same : ∀ a b, g.HasEdge a b ↔ g'.HasEdge a b) :
    g.Acyclic ↔ g'.Acyclic := by
  have relation : g.HasEdge = g'.HasEdge := funext fun a => funext fun b => propext (same a b)
  unfold Acyclic
  rw [relation]

end Graph
end PartPlan
