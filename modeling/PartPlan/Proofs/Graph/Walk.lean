/-
The walk that ordering falls back on. It is taken when the queue runs empty too
early, among the nodes that are then left waiting. There is one to begin with,
and each of them waits for another, so the walk finds a step back wherever it
stands until it meets a node again, and never has to give up with nothing or with
a path that does not close.
-/
import PartPlan.Proofs.Graph.Order

namespace PartPlan
namespace Graph

variable {g : Graph}

/-- If the schedule does not reach all nodes, what is reported is what the walk has
come round. The walk begins at the earliest declared node that is left waiting, and
there is one. In every state that it comes through it has taken a step for each node
on its path, of which there are at most as many as the graph has nodes; it stands at
a node it has met before exactly if that is no longer unvisited; and there is a step
back to a node that is left waiting as well. So it ends at a node met before, and
comes to one. -/
theorem walk_comes_round (wf : g.WellFormed)
    (short : (g.finish g.start).scheduled.length < g.nodes.length) :
    ∃ first rest, g.waiting (g.finish g.start) = first :: rest
      ∧ 0 < (g.finish g.start).waits first
      ∧ (∀ unvisited path current,
        g.WalkState (g.waiting (g.finish g.start)) first unvisited path current →
          g.walkBack (g.waiting (g.finish g.start)) unvisited path current
              = g.cycleAmong (g.waiting (g.finish g.start))
            ∧ path.length ≤ g.nodes.length ∧ (current ∈ unvisited ↔ current ∉ path)
            ∧ ∃ d, g.predecessor? (g.waiting (g.finish g.start)) current = some d
              ∧ g.HasEdge d current ∧ 0 < (g.finish g.start).waits d)
      ∧ ∃ unvisited path current,
        g.WalkState (g.waiting (g.finish g.start)) first unvisited path current
          ∧ path.length ≤ g.nodes.length ∧ current ∈ path
          ∧ g.order = .error (.cycle (path.takeWhile (· ≠ current) ++ [current])) := by
  have order := wf.order_eq
  rw [if_pos short] at order
  obtain ⟨consistent, empty⟩ := (Consistent.start wf).finish wf
  generalize g.finish g.start = p at *
  have covered := consistent.covered_waiting wf empty
  have nodup : (g.waiting p).Nodup := wf.nodup.filter _
  have fewer : (g.waiting p).length ≤ g.nodes.length := List.length_filter_le _ _
  have waits : ∀ x ∈ g.waiting p, 0 < p.waits x := fun x hx => (mem_waiting.1 hx).2
  cases left : g.waiting p with
  | nil => exact absurd left (consistent.waiting_ne_nil wf empty short)
  | cons first rest =>
    rw [left] at order covered nodup fewer waits
    have inside : first ∈ first :: rest := List.mem_cons_self
    have bound {unvisited path : List String} {current : String}
        (state : g.WalkState (first :: rest) first unvisited path current) :
        path.length ≤ g.nodes.length := by
      have := state.length_add
      omega
    refine ⟨first, rest, rfl, waits first inside, fun unvisited path current state => ?_, ?_⟩
    · have known := state.walked nodup inside
      obtain ⟨d, back⟩ := exists_predecessor? covered known.inside
      obtain ⟨hd, edge⟩ := of_predecessor? back
      exact ⟨state.walkBack_eq, bound state, known.unvisited_iff, d, back, edge, waits d hd⟩
    · obtain ⟨unvisited, path, current, state, met, round⟩ :=
        WalkState.start.exists_met covered nodup inside
      refine ⟨unvisited, path, current, state, bound state, met, ?_⟩
      rw [order, cycleAmong, round]

/-- Two circles that share a node, a loop on a node of its own, a node before the
circles and one behind them. Some edges are listed twice. -/
def knot : Graph where
  nodes := ["tail", "right", "root", "hub", "left", "loop"]
  edges :=
    [⟨"hub", "left"⟩, ⟨"left", "hub"⟩, ⟨"hub", "right"⟩, ⟨"right", "hub"⟩, ⟨"loop", "loop"⟩,
      ⟨"root", "right"⟩, ⟨"right", "tail"⟩, ⟨"right", "hub"⟩, ⟨"loop", "loop"⟩]

theorem wellFormed_knot : knot.WellFormed := by
  have joined : ∀ e ∈ knot.edges, e.dependency ∈ knot.nodes ∧ e.dependent ∈ knot.nodes := by decide
  exact ⟨by decide, fun edge => joined _ edge⟩

/-- The walk in the knot begins behind the circles and comes round one of them. -/
theorem knot_comes_round : knot.WellFormed
    ∧ (knot.finish knot.start).scheduled.length < knot.nodes.length
    ∧ (knot.finish knot.start).scheduled = ["root"]
    ∧ ∃ first rest unvisited path current,
      knot.waiting (knot.finish knot.start) = first :: rest
        ∧ knot.WalkState (first :: rest) first unvisited path current ∧ current ∈ path
        ∧ path.length ≤ 6
        ∧ knot.order = .error (.cycle (path.takeWhile (· ≠ current) ++ [current])) := by
  have scheduled : (knot.finish knot.start).scheduled = ["root"] := by decide +kernel
  have short : (knot.finish knot.start).scheduled.length < knot.nodes.length := by
    rw [scheduled]
    decide
  obtain ⟨first, rest, left, -, -, unvisited, path, current, state, bound, met, order⟩ :=
    walk_comes_round wellFormed_knot short
  rw [left] at state
  exact ⟨wellFormed_knot, short, scheduled, first, rest, unvisited, path, current, left, state,
    met, bound, order⟩

end Graph
end PartPlan
