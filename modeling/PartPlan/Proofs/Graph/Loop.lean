/-
The scheduling loop as a whole. `Graph.Reached` lists the states between its
steps. In each of them the counters and the queue say what they should
(`Reached.consistent`), and every node has a counter (`Reached.counted`). While a
node is scheduled, its dependents are released one by one, and each still waits
for the edge that it is released from (`Consistent.waits_before_release`): the
edges counted for it and the times it is released come from the same list.

What is left over in the end is what no schedule can reach, the nodes of cycles
and those behind them: walking back from a node that waits comes round a cycle
from which edges lead to it, and whatever a cycle leads to waits for ever.
-/
import PartPlan.Proofs.Graph.Walk

namespace PartPlan

-- ================================================================ counters

namespace Progress

/-- A release keeps every counter. -/
theorem isSome_counters_release (p : Progress) (id x : String) :
    ((p.release id).counters.find? x).isSome = (p.counters.find? x).isSome := by
  unfold release
  split
  · rfl
  · next n waits =>
    show ((p.counters.insert id n).find? x).isSome = _
    rw [SortedMap.find?_insert]
    split
    · next same => rw [same, find?_counters waits, Option.isSome_some, Option.isSome_some]
    · rfl

theorem isSome_counters_foldl_release (ids : List String) (p : Progress) (x : String) :
    ((ids.foldl release p).counters.find? x).isSome = (p.counters.find? x).isSome := by
  induction ids generalizing p with
  | nil => rfl
  | cons id ids ih => rw [List.foldl_cons, ih, isSome_counters_release]

end Progress

namespace Graph

open Relation (TransGen ReflTransGen)

variable {g : Graph} {p : Progress}

-- ======================================================== the reached states

/-- The states that scheduling comes through, between one step and the next. -/
inductive Reached (g : Graph) : Progress → Prop
  | start : Reached g g.start
  | step {p : Progress} {id : String} (before : Reached g p) (next : g.next? p = some id) :
    Reached g (g.schedule p id)

namespace Reached

theorem consistent (wf : g.WellFormed) (h : g.Reached p) : g.Consistent p := by
  induction h with
  | start => exact .start wf
  | step _ next ih => exact ih.schedule wf next

/-- Every node has a counter. -/
theorem counted (h : g.Reached p) {x : String} (node : x ∈ g.nodes) :
    (p.counters.find? x).isSome = true := by
  induction h with
  | start =>
    show ((SortedMap.ofList (g.nodes.map fun id => (id, g.indegree id))).find? x).isSome = true
    rw [SortedMap.find?_ofList_map, if_pos node, Option.isSome_some]
  | @step p id _ _ ih =>
    rw [← ih]
    exact Progress.isSome_counters_foldl_release _ _ x

/-- The last state is reached as well. -/
theorem finish (h : g.Reached p) : g.Reached (g.finish p) := by
  fun_induction Graph.finish g p with
  | case1 p empty => exact h
  | case2 p id next ih => exact ih (h.step next)

end Reached

namespace Consistent

/-- The counter of a node is the number of edges into it from nodes that are not
scheduled. -/
theorem counter_eq (h : g.Consistent p) {x : String}
    (counted : (p.counters.find? x).isSome = true) :
    p.counters.find? x = some (g.unmet p.scheduled x) := by
  obtain ⟨n, found⟩ := Option.isSome_iff_exists.1 counted
  have waits := h.waits_eq x
  unfold Progress.waits at waits
  rw [found] at waits
  rw [found, ← waits, Option.getD_some]

/-- The queue holds what is not scheduled and waits for nothing. -/
theorem mem_ready_iff (h : g.Consistent p) {x : String} :
    x ∈ p.ready ↔ x ∈ g.nodes ∧ x ∉ p.scheduled ∧ p.waits x = 0 := by
  rw [h.mem_ready, h.waits_eq, unmet_eq_zero]
  constructor
  · intro ready
    exact ⟨ready.node, ready.fresh, ready.served⟩
  · intro ready
    obtain ⟨node, fresh, served⟩ := ready
    exact ⟨node, fresh, served⟩

/-- A node that is about to be released waits for something: what it waits for
includes every edge from the scheduled node that has not been followed yet. -/
theorem waits_before_release (h : g.Consistent p) {id : String} (next : g.next? p = some id)
    {before after : List String} {x : String}
    (releases : g.dependentsOf id = before ++ x :: after) :
    0 < (before.foldl Progress.release (p.take id)).waits x := by
  have counted : (p.take id).waits x = g.unmet p.scheduled x := h.waits_eq x
  have edges := unmet_snoc (g := g) (h.goesNext next).ready.fresh x
  rw [releases, List.count_append, List.count_cons_self] at edges
  rw [Progress.waits_foldl_release, counted]
  omega

end Consistent

-- ============================================================== what is left

/-- A node lies on a cycle, or edges lead to it from one. -/
def BehindCycle (g : Graph) (x : String) : Prop :=
  ∃ vs, g.IsCycle vs ∧ ∃ v ∈ vs, ReflTransGen g.HasEdge v x

/-- Each node of a cycle depends on one of them. -/
theorem IsCycle.exists_hasEdge {vs : List String} (h : g.IsCycle vs) {v : String} (hv : v ∈ vs) :
    ∃ u ∈ vs, g.HasEdge u v := by
  obtain ⟨i, hi, rfl⟩ := List.getElem_of_mem hv
  cases i with
  | zero =>
    refine ⟨vs.getLast h.nonempty, List.getLast_mem h.nonempty, ?_⟩
    rw [← List.head_eq_getElem h.nonempty]
    exact h.closes
  | succ i => exact ⟨vs[i], List.getElem_mem _, h.steps i hi⟩

namespace Greedy

variable {o : List String}

/-- A schedule reaches no node of a cycle: the earliest one that it reached would
stand behind another. -/
theorem notMem_of_isCycle (h : g.Greedy o) {vs : List String} (cycle : g.IsCycle vs) {v : String}
    (hv : v ∈ vs) : v ∉ o := by
  intro scheduled
  induction place : o.idxOf v using Nat.strong_induction_on generalizing v with
  | _ n ih =>
    obtain ⟨u, hu, edge⟩ := cycle.exists_hasEdge hv
    have earlier := h.forward scheduled edge
    exact ih _ (place ▸ earlier) hu (h.closed scheduled edge) rfl

/-- What a scheduled node depends on, even through others, is scheduled. -/
theorem closed_reflTransGen (h : g.Greedy o) {v x : String} (hx : x ∈ o)
    (path : ReflTransGen g.HasEdge v x) : v ∈ o := by
  induction path using ReflTransGen.head_induction_on with
  | refl => exact hx
  | head edge _ ih => exact h.closed ih edge

/-- A schedule does not reach what is behind a cycle. -/
theorem notMem_of_behindCycle (h : g.Greedy o) {x : String} (behind : g.BehindCycle x) :
    x ∉ o := by
  intro scheduled
  obtain ⟨vs, cycle, v, hv, path⟩ := behind
  exact h.notMem_of_isCycle cycle hv (h.closed_reflTransGen scheduled path)

end Greedy

/-- When the queue is empty, a node that waits is behind a cycle: the walk back from
it comes round one. -/
theorem Consistent.behindCycle (wf : g.WellFormed) (h : g.Consistent p) (empty : g.next? p = none)
    {x : String} (waits : x ∈ g.waiting p) : g.BehindCycle x := by
  have nodup : (g.waiting p).Nodup := wf.nodup.filter _
  obtain ⟨unvisited, path, current, state, met, -⟩ :=
    WalkState.start.exists_met (h.covered_waiting wf empty) nodup waits
  refine ⟨_, (state.walked nodup waits).close met, current, by simp, ?_⟩
  exact state.leads_to_first current List.mem_cons_self

-- ================================================================ the loop

/-- The invariant of scheduling, and what it comes to. In every state the counter of a
node is the number of edges into it, as often as they are listed, from nodes that
are not scheduled; the queue holds each node that is not scheduled and has counted
down to zero, and holds it once; no node is scheduled twice; and while the next node
is scheduled no counter is at zero when it is counted down. The last state is one of
them and has an empty queue, and what is not scheduled then is what still waits for
something, and is what lies on a cycle or behind one. -/
theorem loop_invariant (wf : g.WellFormed) :
    (∀ p, g.Reached p →
      (∀ x ∈ g.nodes, p.counters.find? x = some (g.unmet p.scheduled x))
        ∧ p.ready.Nodup ∧ (∀ x, x ∈ p.ready ↔ x ∈ g.nodes ∧ x ∉ p.scheduled ∧ p.waits x = 0)
        ∧ p.scheduled.Nodup ∧ p.scheduled ⊆ g.nodes
        ∧ ∀ id, g.next? p = some id → ∀ before x after, g.dependentsOf id = before ++ x :: after →
          0 < (before.foldl Progress.release (p.take id)).waits x)
      ∧ g.Reached (g.finish g.start) ∧ (g.finish g.start).ready = []
      ∧ ∀ x ∈ g.nodes, (x ∉ (g.finish g.start).scheduled ↔ 0 < (g.finish g.start).waits x)
        ∧ (0 < (g.finish g.start).waits x ↔ g.BehindCycle x) := by
  obtain ⟨last, empty⟩ := (Consistent.start wf).finish wf
  refine ⟨fun p reached => ?_, Reached.start.finish, ?_, fun x node => ?_⟩
  · have h := reached.consistent wf
    exact ⟨fun x node => h.counter_eq (reached.counted node), h.ready_nodup,
      fun x => h.mem_ready_iff, h.greedy.nodup, h.greedy.subset,
      fun id next before x after releases => h.waits_before_release next releases⟩
  · refine List.eq_nil_iff_forall_not_mem.2 fun x queued => ?_
    have passed := List.find?_eq_none.1 empty x ((last.mem_ready x).1 queued).node
    exact passed (List.contains_iff_mem.2 queued)
  · have left := last.waits_pos_iff wf empty node
    refine ⟨left.symm, fun waits => ?_, fun behind => ?_⟩
    · exact last.behindCycle wf empty (mem_waiting.2 ⟨node, waits⟩)
    · exact left.2 (last.greedy.notMem_of_behindCycle behind)

/-- Of the knot only the root is scheduled. The tail is on no circle and is left
behind them, and no counter falls short although edges are listed twice. -/
theorem knot_left_over : knot.WellFormed
    ∧ (knot.finish knot.start).scheduled = ["root"]
    ∧ knot.BehindCycle "tail"
    ∧ (∀ p, knot.Reached p → p.scheduled.Nodup
      ∧ p.counters.find? "hub" = some (knot.unmet p.scheduled "hub"))
    ∧ ¬ knot.BehindCycle "root" := by
  obtain ⟨invariant, -, -, left⟩ := loop_invariant wellFormed_knot
  have scheduled : (knot.finish knot.start).scheduled = ["root"] := by decide +kernel
  have unscheduled := fun x node => (left x node).1.trans (left x node).2
  rw [scheduled] at unscheduled
  refine ⟨wellFormed_knot, scheduled, (unscheduled "tail" (by decide)).1 (by decide),
    fun p reached => ?_, (unscheduled "root" (by decide)).not.1 (by decide)⟩
  obtain ⟨counters, -, -, nodup, -⟩ := invariant p reached
  exact ⟨nodup, counters "hub" (by decide)⟩

end Graph
end PartPlan
