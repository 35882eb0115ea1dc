/-
Graphs whose nodes have other names. `Graph.Renamed` says that one graph is
another with its nodes renamed: the nodes are declared in the same order, and the
edges are the same as a relation, in whatever order and however often they are
listed.

Ordering only ever asks whether two names are the same and which node is declared
before which, so it is carried along: what can go next in one graph can go next
in the other, both schedules run out at the same place, and the walk back from
what is left takes the same way. The outcome of one is therefore that of the
other with its names replaced (`Renamed.order_ok`, `Renamed.order_cycle`).
-/
import Mathlib.Data.List.Find
import Mathlib.Data.Set.Function
import PartPlan.Proofs.Graph.Determined

namespace PartPlan

-- ==================================================== lists of other names

section Lists

variable {ρ : String → String} {known : Set String} {l : List String} {x : String}

theorem mem_map_of_injOn (inj : Set.InjOn ρ known) (hl : ∀ y ∈ l, y ∈ known) (hx : x ∈ known) :
    ρ x ∈ l.map ρ ↔ x ∈ l := by
  rw [List.mem_map]
  constructor
  · intro h
    obtain ⟨y, hy, same⟩ := h
    exact inj (hl y hy) hx same ▸ hy
  · exact fun h => ⟨x, h, rfl⟩

theorem idxOf_map_of_injOn (inj : Set.InjOn ρ known) (hl : ∀ y ∈ l, y ∈ known) (hx : x ∈ known) :
    (l.map ρ).idxOf (ρ x) = l.idxOf x := by
  induction l with
  | nil => rfl
  | cons y l ih =>
    obtain ⟨hy, hl⟩ := List.forall_mem_cons.1 hl
    rw [List.map_cons]
    by_cases same : y = x
    · rw [same, List.idxOf_cons_self, List.idxOf_cons_self]
    · have differ : ρ y ≠ ρ x := fun e => same (inj hy hx e)
      rw [List.idxOf_cons_ne _ differ, List.idxOf_cons_ne _ same, ih hl]

theorem erase_map_of_injOn (inj : Set.InjOn ρ known) (hl : ∀ y ∈ l, y ∈ known) (hx : x ∈ known) :
    (l.map ρ).erase (ρ x) = (l.erase x).map ρ := by
  induction l with
  | nil => rfl
  | cons y l ih =>
    obtain ⟨hy, hl⟩ := List.forall_mem_cons.1 hl
    rw [List.map_cons]
    by_cases same : y = x
    · rw [same, List.erase_cons_head, List.erase_cons_head]
    · have differ : ρ y ≠ ρ x := fun e => same (inj hy hx e)
      rw [List.erase_cons_tail (by simpa using differ), List.erase_cons_tail (by simpa using same),
        ih hl, List.map_cons]

theorem takeWhile_map_of_injOn (inj : Set.InjOn ρ known) (hl : ∀ y ∈ l, y ∈ known)
    (hx : x ∈ known) :
    (l.map ρ).takeWhile (· ≠ ρ x) = (l.takeWhile (· ≠ x)).map ρ := by
  induction l with
  | nil => rfl
  | cons y l ih =>
    obtain ⟨hy, hl⟩ := List.forall_mem_cons.1 hl
    rw [List.map_cons]
    by_cases same : y = x
    · rw [same, List.takeWhile_cons_of_neg (by simp), List.takeWhile_cons_of_neg (by simp)]
      rfl
    · have differ : ρ y ≠ ρ x := fun e => same (inj hy hx e)
      rw [List.takeWhile_cons_of_pos (by simpa using differ),
        List.takeWhile_cons_of_pos (by simpa using same), ih hl, List.map_cons]

end Lists

namespace Graph

variable {g g' : Graph} {ρ : String → String} {o o' done : List String} {x : String}

-- ======================================================== finished schedules

/-- After a schedule no node can go next. -/
def Stuck (g : Graph) (done : List String) : Prop := ∀ x, ¬ g.Ready done x

/-- A greedy schedule after which no node can go next is at least as long as
every other. -/
theorem Greedy.length_le_of_stuck (h : g.Greedy o) (stuck : g.Stuck o) (h' : g.Greedy o') :
    o'.length ≤ o.length := by
  by_contra longer
  rw [Nat.not_le] at longer
  have begun : g.Greedy (o'.take o.length) := by
    intro k hk
    have inside : k < o.length := by
      rw [List.length_take] at hk
      omega
    rw [List.take_take, Nat.min_eq_left inside.le, List.getElem_take]
    exact h' k (by omega)
  have same : o = o'.take o.length :=
    h.deterministic begun (by rw [List.length_take]; omega)
  have next := (h' o.length longer).ready
  rw [← same] at next
  exact stuck _ next

/-- There is only one greedy schedule after which no node can go next. -/
theorem Greedy.eq_of_stuck (h : g.Greedy o) (stuck : g.Stuck o) (h' : g.Greedy o')
    (stuck' : g.Stuck o') : o = o' :=
  h.deterministic h'
    (Nat.le_antisymm (h'.length_le_of_stuck stuck' h) (h.length_le_of_stuck stuck h'))

/-- When the queue is empty no node can go next. -/
theorem Consistent.stuck {p : Progress} (h : g.Consistent p) (empty : g.next? p = none) :
    g.Stuck p.scheduled := by
  intro x ready
  have passed := List.find?_eq_none.1 empty x ready.node
  exact passed (List.contains_iff_mem.2 ((h.mem_ready x).2 ready))

/-- How the order of a well-formed graph is found. -/
theorem WellFormed.exists_finished (wf : g.WellFormed) :
    ∃ o, g.Greedy o ∧ g.Stuck o
      ∧ g.order = if o.length < g.nodes.length then
          .error (.cycle (g.cycleAmong (g.nodes.filter fun id => decide (id ∉ o))))
        else .ok o := by
  obtain ⟨h, empty⟩ := (Consistent.start wf).finish wf
  refine ⟨_, h.greedy, h.stuck empty, ?_⟩
  have left : g.waiting (g.finish g.start)
      = g.nodes.filter fun id => decide (id ∉ (g.finish g.start).scheduled) :=
    List.filter_congr fun id node => decide_eq_decide.2 (h.waits_pos_iff wf empty node)
  rw [wf.order_eq, left]

-- ============================================================ renamed graphs

/-- One graph is another with its nodes renamed. -/
structure Renamed (ρ : String → String) (g g' : Graph) : Prop where
  wellFormed : g.WellFormed
  wellFormed' : g'.WellFormed
  injective : Set.InjOn ρ {x | x ∈ g.nodes}
  nodes : g'.nodes = g.nodes.map ρ
  edges : ∀ a ∈ g.nodes, ∀ b ∈ g.nodes, g'.HasEdge (ρ a) (ρ b) ↔ g.HasEdge a b

namespace Renamed

variable (h : g.Renamed ρ g')
include h

theorem mem_nodes {y : String} : y ∈ g'.nodes ↔ ∃ x ∈ g.nodes, ρ x = y := by
  rw [h.nodes, List.mem_map]

theorem ready_iff (hd : done ⊆ g.nodes) (hx : x ∈ g.nodes) :
    g'.Ready (done.map ρ) (ρ x) ↔ g.Ready done x := by
  have listed (y : String) (hy : y ∈ g.nodes) : ρ y ∈ done.map ρ ↔ y ∈ done :=
    mem_map_of_injOn h.injective hd hy
  constructor
  · intro ready
    refine ⟨hx, (listed x hx).not.1 ready.fresh, fun d edge => ?_⟩
    have hd := (h.wellFormed.ends edge).1
    exact (listed d hd).1 (ready.served _ ((h.edges d hd x hx).2 edge))
  · intro ready
    refine ⟨h.mem_nodes.2 ⟨x, hx, rfl⟩, (listed x hx).not.2 ready.fresh, fun d' edge => ?_⟩
    obtain ⟨d, hd, rfl⟩ := h.mem_nodes.1 (h.wellFormed'.ends edge).1
    exact (listed d hd).2 (ready.served d ((h.edges d hd x hx).1 edge))

theorem stuck (hd : done ⊆ g.nodes) (stuck : g.Stuck done) : g'.Stuck (done.map ρ) := by
  intro y ready
  obtain ⟨x, hx, rfl⟩ := h.mem_nodes.1 ready.node
  exact stuck x ((h.ready_iff hd hx).1 ready)

theorem goesNext (hd : done ⊆ g.nodes) (next : g.GoesNext done x) :
    g'.GoesNext (done.map ρ) (ρ x) where
  ready := (h.ready_iff hd next.ready.node).2 next.ready
  earliest y' ready := by
    obtain ⟨y, hy, rfl⟩ := h.mem_nodes.1 ready.node
    rw [h.nodes, idxOf_map_of_injOn h.injective (fun _ => id) next.ready.node,
      idxOf_map_of_injOn h.injective (fun _ => id) hy]
    exact next.earliest y ((h.ready_iff hd hy).1 ready)

theorem greedy (greedy : g.Greedy o) : g'.Greedy (o.map ρ) := by
  intro k hk
  rw [List.length_map] at hk
  have begun : o.take k ⊆ g.nodes := List.Subset.trans (List.take_subset k o) greedy.subset
  rw [← List.map_take, List.getElem_map]
  exact h.goesNext begun (greedy k hk)

-- ================================================================ the walk

variable {among unvisited path : List String} {current : String}

theorem predecessor? (ha : among ⊆ g.nodes) (hc : current ∈ g.nodes) :
    g'.predecessor? (among.map ρ) (ρ current) = (g.predecessor? among current).map ρ := by
  unfold Graph.predecessor?
  rw [List.find?_map]
  refine congrArg (Option.map ρ) (List.find?_congr fun d hd => ?_)
  have edge : (⟨ρ d, ρ current⟩ : Edge) ∈ g'.edges ↔ (⟨d, current⟩ : Edge) ∈ g.edges :=
    h.edges d (ha hd) current hc
  rw [Function.comp_apply, Bool.eq_iff_iff, List.contains_iff_mem, List.contains_iff_mem, edge]

theorem walkBack (ha : among ⊆ g.nodes) (hu : unvisited ⊆ g.nodes) (hp : path ⊆ g.nodes)
    (hc : current ∈ g.nodes) :
    g'.walkBack (among.map ρ) (unvisited.map ρ) (path.map ρ) (ρ current)
      = (g.walkBack among unvisited path current).map ρ := by
  fun_induction Graph.walkBack g among unvisited path current with
  | case1 unvisited path current unseen d found ih =>
    have step := h.predecessor? ha hc
    rw [found] at step
    have onward := ih (List.Subset.trans List.erase_subset hu) (List.cons_subset.2 ⟨hc, hp⟩)
      (ha (List.mem_of_find?_eq_some found))
    rw [Graph.walkBack, if_pos ((mem_map_of_injOn h.injective hu hc).2 unseen),
      erase_map_of_injOn h.injective hu hc, ← List.map_cons, ← onward]
    split
    · next d' found' =>
      rw [step] at found'
      rw [← Option.some.inj found']
    · next missing =>
      rw [step] at missing
      cases missing
  | case2 unvisited path current unseen missing =>
    have step := h.predecessor? ha hc
    rw [missing] at step
    rw [Graph.walkBack, if_pos ((mem_map_of_injOn h.injective hu hc).2 unseen)]
    split
    · next d' found =>
      rw [step] at found
      cases found
    · rw [← List.map_cons, List.map_reverse]
  | case3 unvisited path current seen =>
    rw [Graph.walkBack, if_neg ((mem_map_of_injOn h.injective hu hc).not.2 seen),
      takeWhile_map_of_injOn h.injective hp hc, List.map_append, List.map_singleton]

theorem cycleAmong (ha : among ⊆ g.nodes) :
    g'.cycleAmong (among.map ρ) = (g.cycleAmong among).map ρ := by
  cases among with
  | nil => rfl
  | cons first rest =>
    exact h.walkBack ha ha (List.nil_subset _) (ha List.mem_cons_self)

-- ============================================================ the outcome

theorem order_eq_map : ∃ o, g.Greedy o
    ∧ (g.order = if o.length < g.nodes.length then
        .error (.cycle (g.cycleAmong (g.nodes.filter fun id => decide (id ∉ o)))) else .ok o)
    ∧ g'.order = if o.length < g.nodes.length then
        .error (.cycle ((g.cycleAmong (g.nodes.filter fun id => decide (id ∉ o))).map ρ))
      else .ok (o.map ρ) := by
  obtain ⟨o, greedy, stuck, order⟩ := h.wellFormed.exists_finished
  obtain ⟨o', greedy', stuck', order'⟩ := h.wellFormed'.exists_finished
  obtain rfl := greedy'.eq_of_stuck stuck' (h.greedy greedy) (h.stuck greedy.subset stuck)
  have left : g'.nodes.filter (fun id => decide (id ∉ o.map ρ))
      = (g.nodes.filter fun id => decide (id ∉ o)).map ρ := by
    rw [h.nodes, List.filter_map]
    refine congrArg (List.map ρ) (List.filter_congr fun id node => ?_)
    exact decide_eq_decide.2 (mem_map_of_injOn h.injective greedy.subset node).not
  refine ⟨o, greedy, order, ?_⟩
  rw [order', left, h.cycleAmong (List.filter_subset_self _), h.nodes, List.length_map,
    List.length_map]

/-- The order of a renamed graph is the order with its names replaced. -/
theorem order_ok (ordered : g.order = .ok o) : g'.order = .ok (o.map ρ) := by
  obtain ⟨o', -, order, order'⟩ := h.order_eq_map
  rw [order', ordered] at *
  split at order
  · cases order
  · next all =>
    rw [if_neg all, Except.ok.inj order]

/-- The cycle reported of a renamed graph is the cycle with its names
replaced. -/
theorem order_cycle {vs : List String} (cyclic : g.order = .error (.cycle vs)) :
    g'.order = .error (.cycle (vs.map ρ)) := by
  obtain ⟨o, -, order, order'⟩ := h.order_eq_map
  rw [cyclic] at order
  rw [order']
  split at order
  · next short =>
    cases order
    rw [if_pos short]
  · cases order

end Renamed
end Graph
end PartPlan
