/-
The walk that finds a cycle. It is given nodes of which each depends on
another of them, and steps back from a node to one it depends on until it
meets a node for the second time. The visited nodes, last first, are a
path along edges; what lies between the two visits closes to a cycle.

`WalkState` lists the states that the walk goes through, and `Walked` is what
it knows in each of them. A step takes a node from the unvisited ones to the
path, so the walk has no more steps than there are nodes, and since each node
has one to step back to, it ends where it meets itself and nowhere else.

A cycle is reported in the direction of the edges: each of its nodes has an
edge to the one after it, and the last one to the first.
-/
import Mathlib.Data.List.Chain
import Mathlib.Logic.Relation
import PartPlan.Proofs.Graph.Schedule

namespace PartPlan
namespace Graph

/-- Different nodes, each with an edge to the next and the last with one to
the first. -/
structure IsCycle (g : Graph) (vs : List String) : Prop where
  nonempty : vs ≠ []
  nodup : vs.Nodup
  steps : ∀ i (h : i + 1 < vs.length), g.HasEdge vs[i] vs[i + 1]
  closes : g.HasEdge (vs.getLast nonempty) (vs.head nonempty)

/-- No node depends on itself, not even through others. -/
def Acyclic (g : Graph) : Prop := ∀ x, ¬ Relation.TransGen g.HasEdge x x

variable {g : Graph}

/-- The nodes of a cycle depend on themselves. -/
theorem IsCycle.not_acyclic {vs : List String} (h : g.IsCycle vs) : ¬ g.Acyclic := by
  intro acyclic
  have positive := List.length_pos_of_ne_nil h.nonempty
  have reach : ∀ i (hi : i < vs.length), Relation.ReflTransGen g.HasEdge vs[0] vs[i] := by
    intro i
    induction i with
    | zero => exact fun _ => Relation.ReflTransGen.refl
    | succ i ih => exact fun hi => (ih (by omega)).tail (h.steps i hi)
  have closes := h.closes
  rw [List.getLast_eq_getElem, List.head_eq_getElem] at closes
  exact acyclic _ (Relation.TransGen.tail' (reach (vs.length - 1) (by omega)) closes)

/-- The members of a cycle are nodes. -/
theorem IsCycle.subset (wf : g.WellFormed) {vs : List String} (h : g.IsCycle vs) :
    vs ⊆ g.nodes := by
  intro v hv
  obtain ⟨i, hi, rfl⟩ := List.getElem_of_mem hv
  rcases Nat.lt_or_ge (i + 1) vs.length with inner | last
  · exact (wf.ends (h.steps i inner)).1
  · have closes := h.closes
    rw [List.getLast_eq_getElem] at closes
    obtain rfl : i = vs.length - 1 := by omega
    exact (wf.ends closes).1

/-- A path along edges that comes back to where it starts, and to no other
node twice, is a cycle. -/
theorem isCycle_of_path {x : String} {between : List String}
    (path : List.IsChain g.HasEdge (x :: (between ++ [x]))) (nodup : (between ++ [x]).Nodup) :
    g.IsCycle (between ++ [x]) where
  nonempty := by simp
  nodup := nodup
  steps := List.isChain_iff_getElem.1 (List.isChain_cons.1 path).2
  closes := by
    rw [List.getLast_concat]
    exact (List.isChain_cons.1 path).1 _ (List.head?_eq_some_head _)

-- ============================================================ the walk

/-- A step back leads along an edge to a node of the set. -/
theorem of_predecessor? {among : List String} {x d : String}
    (h : g.predecessor? among x = some d) : d ∈ among ∧ g.HasEdge d x := by
  have listed : g.edges.contains ⟨d, x⟩ = true :=
    List.find?_some (p := fun d => g.edges.contains ⟨d, x⟩) h
  exact ⟨List.mem_of_find?_eq_some h, List.contains_iff_mem.1 listed⟩

/-- From a node of a set in which every node depends on another there is a step
back. -/
theorem exists_predecessor? {among : List String}
    (covered : ∀ x ∈ among, ∃ d ∈ among, g.HasEdge d x) {x : String} (hx : x ∈ among) :
    ∃ d, g.predecessor? among x = some d := by
  obtain ⟨d, hd, edge⟩ := covered x hx
  exact Option.isSome_iff_exists.1 (List.find?_isSome.2 ⟨d, hd, List.contains_iff_mem.2 edge⟩)

/-- The states of the walk from `first`: the nodes that are unvisited, the visited
ones, last first, and the node where the walk stands. -/
inductive WalkState (g : Graph) (among : List String) (first : String) :
    List String → List String → String → Prop
  | start : WalkState g among first among [] first
  | step {unvisited path : List String} {current d : String}
    (before : WalkState g among first unvisited path current) (unseen : current ∈ unvisited)
    (back : g.predecessor? among current = some d) :
    WalkState g among first (unvisited.erase current) (current :: path) d

/-- What the walk knows at a node: the visited nodes are different and no
longer unvisited, and lead from this node along edges. -/
structure Walked (g : Graph) (among unvisited path : List String) (current : String) : Prop where
  inside : current ∈ among
  cover : ∀ x ∈ among, x ∈ unvisited ∨ x ∈ path
  fresh : ∀ x ∈ unvisited, x ∉ path
  unvisited_nodup : unvisited.Nodup
  path_nodup : path.Nodup
  chain : List.IsChain g.HasEdge (current :: path)

/-- A step back keeps what the walk knows. -/
theorem Walked.step {among unvisited path : List String} {current d : String}
    (h : g.Walked among unvisited path current) (unseen : current ∈ unvisited) (hd : d ∈ among)
    (edge : g.HasEdge d current) :
    g.Walked among (unvisited.erase current) (current :: path) d where
  inside := hd
  cover x hx := by
    by_cases same : x = current
    · exact Or.inr (same ▸ List.mem_cons_self)
    · exact (h.cover x hx).imp (List.mem_erase_of_ne same).2 (List.mem_cons_of_mem _)
  fresh x hx := by
    obtain ⟨other, old⟩ := h.unvisited_nodup.mem_erase_iff.1 hx
    exact List.not_mem_cons_of_ne_of_not_mem other (h.fresh x old)
  unvisited_nodup := h.unvisited_nodup.erase current
  path_nodup := List.nodup_cons.2 ⟨h.fresh current unseen, h.path_nodup⟩
  chain := List.isChain_cons_cons.2 ⟨edge, h.chain⟩

/-- A node is unvisited as long as it is not on the path. -/
theorem Walked.unvisited_iff {among unvisited path : List String} {current : String}
    (h : g.Walked among unvisited path current) : current ∈ unvisited ↔ current ∉ path :=
  ⟨h.fresh current, (h.cover current h.inside).resolve_right⟩

/-- At a node met before, the nodes since that visit are a cycle. -/
theorem Walked.close {among unvisited path : List String} {current : String}
    (h : g.Walked among unvisited path current) (met : current ∈ path) :
    g.IsCycle (path.takeWhile (· ≠ current) ++ [current]) := by
  obtain ⟨between, before, rfl, new⟩ := List.eq_append_cons_of_mem met
  have others : ∀ x ∈ between, decide (x ≠ current) = true := by
    intro x hx
    refine decide_eq_true ?_
    intro h
    obtain rfl := h
    exact new hx
  have since : (between ++ current :: before).takeWhile (· ≠ current) = between := by
    rw [List.takeWhile_append_of_pos others, List.takeWhile_cons_of_neg (by simp), List.append_nil]
  have upto : between ++ [current] <+: between ++ current :: before := ⟨before, by simp⟩
  rw [since]
  refine isCycle_of_path ?_ (h.path_nodup.sublist upto.sublist)
  exact h.chain.prefix ⟨before, by simp⟩

namespace WalkState

variable {among unvisited path : List String} {first current : String}

theorem walked (nodup : among.Nodup) (inside : first ∈ among)
    (h : g.WalkState among first unvisited path current) :
    g.Walked among unvisited path current := by
  induction h with
  | start =>
    exact ⟨inside, fun x hx => Or.inl hx, fun x _ => List.not_mem_nil, nodup, List.nodup_nil,
      List.isChain_singleton first⟩
  | step _ unseen back ih =>
    obtain ⟨hd, edge⟩ := of_predecessor? back
    exact ih.step unseen hd edge

/-- Every step back puts one of the unvisited nodes on the path. -/
theorem length_add (h : g.WalkState among first unvisited path current) :
    unvisited.length + path.length = among.length := by
  induction h with
  | start => rfl
  | step _ unseen _ ih =>
    have shorter := List.length_erase_of_mem unseen
    have := List.length_pos_of_mem unseen
    rw [List.length_cons]
    omega

/-- In every state the walk goes on to where it comes from its start. -/
theorem walkBack_eq (h : g.WalkState among first unvisited path current) :
    g.walkBack among unvisited path current = g.walkBack among among [] first := by
  induction h with
  | start => rfl
  | @step unvisited path current d _ unseen back ih =>
    rw [← ih, walkBack.eq_def g among unvisited path current, if_pos unseen, back]

/-- From every visited node edges lead to the one where the walk began. -/
theorem leads_to_first (h : g.WalkState among first unvisited path current) :
    ∀ v ∈ current :: path, Relation.ReflTransGen g.HasEdge v first := by
  induction h with
  | start =>
    intro v hv
    obtain rfl := List.mem_singleton.1 hv
    exact Relation.ReflTransGen.refl
  | @step unvisited path current d _ _ back ih =>
    obtain ⟨-, edge⟩ := of_predecessor? back
    refine List.forall_mem_cons.2 ⟨?_, ih⟩
    exact Relation.ReflTransGen.head edge (ih current List.mem_cons_self)

/-- Where every node depends on another the walk ends at a node met before, and
with the nodes since that visit. -/
theorem exists_met (covered : ∀ x ∈ among, ∃ d ∈ among, g.HasEdge d x) (nodup : among.Nodup)
    (inside : first ∈ among) (h : g.WalkState among first unvisited path current) :
    ∃ unvisited' path' current', g.WalkState among first unvisited' path' current'
      ∧ current' ∈ path'
      ∧ g.walkBack among unvisited path current
        = path'.takeWhile (· ≠ current') ++ [current'] := by
  fun_induction walkBack g among unvisited path current with
  | case1 unvisited path current unseen d back ih => exact ih (h.step unseen back)
  | case2 unvisited path current unseen hnone =>
    obtain ⟨d, back⟩ := exists_predecessor? covered (h.walked nodup inside).inside
    rw [hnone] at back
    cases back
  | case3 unvisited path current seen =>
    have known := h.walked nodup inside
    exact ⟨unvisited, path, current, h, (known.cover current known.inside).resolve_left seen, rfl⟩

end WalkState

/-- Among nodes of which each depends on another there is a cycle, and the
walk finds one. -/
theorem isCycle_cycleAmong {among : List String} (nonempty : among ≠ []) (nodup : among.Nodup)
    (covered : ∀ x ∈ among, ∃ d ∈ among, g.HasEdge d x) : g.IsCycle (g.cycleAmong among) := by
  cases among with
  | nil => exact absurd rfl nonempty
  | cons first rest =>
    have inside : first ∈ first :: rest := List.mem_cons_self
    obtain ⟨unvisited, path, current, state, met, found⟩ :=
      WalkState.start.exists_met covered nodup inside
    rw [cycleAmong, found]
    exact (state.walked nodup inside).close met

end Graph
end PartPlan
