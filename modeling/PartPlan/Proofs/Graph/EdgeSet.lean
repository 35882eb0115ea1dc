/-
Edges as a set. Counters count an edge as often as it is listed, and releases
follow the list, so on the way graphs with the same edges go through different
states. What can go next, however, depends only on which edges there are, and so
does the walk back from what is left. Two such graphs are renamed to each other
without any name being changed, and the outcome of one is that of the other.
-/
import PartPlan.Proofs.Graph.Renaming
import PartPlan.Proofs.Graph.Walk

namespace PartPlan
namespace Graph

variable {nodes : List String} {edges edges' : List Edge}

/-- A list in which an id stands twice has a first such id. -/
theorem exists_repeated? {l : List String} (twice : ¬ l.Nodup) :
    ∃ id, repeated? [] l = some id := by
  refine Option.ne_none_iff_exists'.1 fun none => ?_
  exact twice (nodup_of_repeated?_eq_none none).1

/-- Graphs with the same nodes and the same edges are renamed to each other by the
identity. -/
theorem renamed_id {g g' : Graph} (wf : g.WellFormed) (wf' : g'.WellFormed)
    (declared : g'.nodes = g.nodes) (same : ∀ a b, g'.HasEdge a b ↔ g.HasEdge a b) :
    g.Renamed id g' where
  wellFormed := wf
  wellFormed' := wf'
  injective := Set.injOn_id _
  nodes := by rw [declared, List.map_id]
  edges a _ b _ := same a b

/-- Two lists of the same edges, in any order and each as often as one likes, give
nodes the same order, or the same cycle is reported. -/
theorem order_of_same_edges
    (joined : ∀ e ∈ edges, e.dependency ∈ nodes ∧ e.dependent ∈ nodes)
    (same : ∀ e, e ∈ edges ↔ e ∈ edges') :
    (Graph.mk nodes edges).order = (Graph.mk nodes edges').order := by
  by_cases nodup : nodes.Nodup
  · have wf : (Graph.mk nodes edges).WellFormed := ⟨nodup, fun edge => joined _ edge⟩
    have wf' : (Graph.mk nodes edges').WellFormed :=
      ⟨nodup, fun edge => joined _ ((same _).2 edge)⟩
    have renamed := renamed_id wf wf' rfl fun a b => (same ⟨a, b⟩).symm
    obtain ⟨o, -, order, order'⟩ := renamed.order_eq_map
    rw [order, order', List.map_id, List.map_id]
  · -- a repeated node is reported before any edge is looked at
    obtain ⟨id, twice⟩ := exists_repeated? nodup
    unfold order
    rw [twice]

/-- The edges of the knot, each once, and the last one first. -/
def knotOnce : List Edge :=
  [⟨"right", "tail"⟩, ⟨"root", "right"⟩, ⟨"loop", "loop"⟩, ⟨"right", "hub"⟩, ⟨"hub", "right"⟩,
    ⟨"left", "hub"⟩, ⟨"hub", "left"⟩]

/-- However its edges are listed, the knot has one of its three circles reported. -/
theorem knot_each_once :
    (∀ e ∈ knot.edges, e.dependency ∈ knot.nodes ∧ e.dependent ∈ knot.nodes)
      ∧ (∀ e, e ∈ knot.edges ↔ e ∈ knotOnce) ∧ knot.edges.length = knotOnce.length + 2
      ∧ knot.order = .error (.cycle ["hub", "right"])
      ∧ knot.order = (Graph.mk knot.nodes knotOnce).order := by
  have joined : ∀ e ∈ knot.edges, e.dependency ∈ knot.nodes ∧ e.dependent ∈ knot.nodes := by decide
  have once : ∀ e ∈ knot.edges, e ∈ knotOnce := by decide
  have kept : ∀ e ∈ knotOnce, e ∈ knot.edges := by decide
  have same : ∀ e, e ∈ knot.edges ↔ e ∈ knotOnce := fun e => ⟨once e, kept e⟩
  have reported : knot.order = .error (.cycle ["hub", "right"]) := by decide +kernel
  exact ⟨joined, same, rfl, reported, order_of_same_edges joined same⟩

end Graph
end PartPlan
