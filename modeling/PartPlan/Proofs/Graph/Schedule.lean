/-
The scheduling loop, one step at a time. What a node waits for is fixed by
the edges and by the nodes scheduled so far, and the two numbers the loop
works with say just that: `Graph.Consistent` states that a counter counts
the edges from nodes that are not scheduled, each as often as it is listed,
and that the queue holds the nodes that could go next, each once. Scheduling
a node keeps both (`Consistent.schedule`), so they hold when the queue runs
empty (`Consistent.finish`).

The schedule itself is kept greedy on the way: each of its nodes was the
earliest declared one that could go next.
-/
import Mathlib.Data.List.Basic
import Mathlib.Data.List.Perm.Subperm
import PartPlan.Graph.Order

namespace PartPlan

-- ============================================================= releasing

namespace Progress

/-- A release takes one from the counter of its node and from no other. -/
theorem waits_release (p : Progress) (id x : String) :
    (p.release id).waits x = if x = id then p.waits x - 1 else p.waits x := by
  unfold release
  split
  · next h =>
    split
    · next e => rw [e, h]
    · rfl
  · next n h =>
    show ((p.counters.insert id n).find? x).getD 0 = _
    rw [SortedMap.find?_insert]
    split
    · next e =>
      rw [e, h]
      rfl
    · rfl

/-- A node joins the queue with its last release. -/
theorem mem_ready_release (p : Progress) (id x : String) :
    x ∈ (p.release id).ready ↔ x ∈ p.ready ∨ (x = id ∧ p.waits id = 1) := by
  unfold release
  split
  · next h => simp [h]
  · next n h =>
    show x ∈ (if n = 0 then id :: p.ready else p.ready) ↔ _
    split
    · next hn => simp [h, hn, or_comm]
    · next hn => simp [h, hn]

theorem scheduled_release (p : Progress) (id : String) :
    (p.release id).scheduled = p.scheduled := by
  unfold release
  split <;> rfl

/-- Each release of a node takes one from its counter. -/
theorem waits_foldl_release (ids : List String) (p : Progress) (x : String) :
    (ids.foldl release p).waits x = p.waits x - ids.count x := by
  induction ids generalizing p with
  | nil => rfl
  | cons id ids ih =>
    rw [List.foldl_cons, ih, waits_release, List.count_cons]
    by_cases h : x = id
    · rw [if_pos h, if_pos (beq_iff_eq.2 h.symm)]
      omega
    · rw [if_neg h, if_neg (fun e => h (beq_iff_eq.1 e).symm)]
      omega

/-- After some releases the queue also holds the nodes that waited for
nothing else. -/
theorem mem_ready_foldl_release (ids : List String) (p : Progress) (x : String) :
    x ∈ (ids.foldl release p).ready
      ↔ x ∈ p.ready ∨ (0 < p.waits x ∧ p.waits x ≤ ids.count x) := by
  induction ids generalizing p with
  | nil =>
    rw [List.foldl_nil, List.count_nil]
    have nothing : ¬ (0 < p.waits x ∧ p.waits x ≤ 0) := by omega
    exact (or_iff_left nothing).symm
  | cons id ids ih =>
    rw [List.foldl_cons, ih, mem_ready_release, waits_release, List.count_cons]
    by_cases h : x = id
    · subst h
      rw [if_pos rfl, if_pos (beq_self_eq_true x)]
      by_cases queued : x ∈ p.ready
      · simp [queued]
      · simp only [queued, true_and, false_or]
        omega
    · rw [if_neg h, if_neg (fun e => h (beq_iff_eq.1 e).symm)]
      simp [h]

theorem scheduled_foldl_release (ids : List String) (p : Progress) :
    (ids.foldl release p).scheduled = p.scheduled := by
  induction ids generalizing p with
  | nil => rfl
  | cons id ids ih => rw [List.foldl_cons, ih, scheduled_release]

/-- The queue holds no node twice and none that waits. -/
def Settled (p : Progress) : Prop := p.ready.Nodup ∧ ∀ x ∈ p.ready, p.waits x = 0

theorem Settled.release {p : Progress} (h : p.Settled) (id : String) : (p.release id).Settled := by
  refine ⟨?_, ?_⟩
  · unfold Progress.release
    split
    · exact h.1
    · next n waiting =>
      show (if n = 0 then id :: p.ready else p.ready).Nodup
      split
      · refine List.nodup_cons.2 ⟨fun queued => ?_, h.1⟩
        rw [h.2 id queued] at waiting
        cases waiting
      · exact h.1
  · intro x hx
    rw [waits_release]
    rcases (mem_ready_release p id x).1 hx with queued | ⟨rfl, last⟩
    · rw [h.2 x queued]
      split <;> rfl
    · rw [if_pos rfl, last]

theorem Settled.foldl_release {p : Progress} (h : p.Settled) (ids : List String) :
    (ids.foldl Progress.release p).Settled := by
  induction ids generalizing p with
  | nil => exact h
  | cons id ids ih => exact ih (h.release id)

end Progress

namespace Graph

-- ============================================================== notions

/-- One node has to be built before another. -/
def HasEdge (g : Graph) (a b : String) : Prop := ⟨a, b⟩ ∈ g.edges

/-- No node is listed twice, and every edge joins nodes. -/
structure WellFormed (g : Graph) : Prop where
  nodup : g.nodes.Nodup
  ends : ∀ {a b}, g.HasEdge a b → a ∈ g.nodes ∧ b ∈ g.nodes

/-- A node can go next: it is not done, and what it depends on is. -/
structure Ready (g : Graph) (done : List String) (x : String) : Prop where
  node : x ∈ g.nodes
  fresh : x ∉ done
  served : ∀ d, g.HasEdge d x → d ∈ done

/-- A node is the earliest declared one that can go next. -/
structure GoesNext (g : Graph) (done : List String) (x : String) : Prop where
  ready : g.Ready done x
  earliest : ∀ y, g.Ready done y → g.nodes.idxOf x ≤ g.nodes.idxOf y

/-- Every node of a schedule is the one that goes next after those before it. -/
def Greedy (g : Graph) (o : List String) : Prop :=
  ∀ k (h : k < o.length), g.GoesNext (o.take k) o[k]

/-- How many edges lead into a node from nodes that are not done. -/
def unmet (g : Graph) (done : List String) (x : String) : Nat :=
  g.edges.countP fun e => e.dependent == x && !done.contains e.dependency

/-- Counters and queue tell the truth about the schedule so far. -/
structure Consistent (g : Graph) (p : Progress) : Prop where
  greedy : g.Greedy p.scheduled
  waits_eq : ∀ x, p.waits x = g.unmet p.scheduled x
  ready_nodup : p.ready.Nodup
  mem_ready : ∀ x, x ∈ p.ready ↔ g.Ready p.scheduled x

variable {g : Graph} {p : Progress}

-- ======================================================= greedy schedules

theorem greedy_nil : g.Greedy [] := fun _ h => absurd h (Nat.not_lt_zero _)

/-- A greedy schedule stays greedy with the node that goes next. -/
theorem Greedy.snoc {o : List String} {x : String} (h : g.Greedy o) (hx : g.GoesNext o x) :
    g.Greedy (o ++ [x]) := by
  intro k hk
  rcases Nat.lt_or_ge k o.length with inside | last
  · rw [List.take_append_of_le_length (Nat.le_of_lt inside), List.getElem_append_left inside]
    exact h k inside
  · rw [List.length_append, List.length_singleton] at hk
    obtain rfl : k = o.length := by omega
    rw [List.take_left, List.getElem_concat_length rfl]
    exact hx

/-- In a greedy schedule each node goes next after those before it. -/
theorem Greedy.goesNext {done rest : List String} {x : String} (h : g.Greedy (done ++ x :: rest)) :
    g.GoesNext done x := by
  have next := h done.length (by simp)
  rw [List.take_left, List.getElem_append_right (Nat.le_refl _)] at next
  simpa using next

/-- What a scheduled node depends on is scheduled. -/
theorem Greedy.closed {o : List String} (h : g.Greedy o) {d x : String} (hx : x ∈ o)
    (edge : g.HasEdge d x) : d ∈ o := by
  obtain ⟨k, hk, rfl⟩ := List.getElem_of_mem hx
  exact List.mem_of_mem_take ((h k hk).ready.served d edge)

theorem Greedy.subset {o : List String} (h : g.Greedy o) : o ⊆ g.nodes := by
  intro x hx
  obtain ⟨k, hk, rfl⟩ := List.getElem_of_mem hx
  exact (h k hk).ready.node

theorem Greedy.nodup {o : List String} (h : g.Greedy o) : o.Nodup := by
  refine List.pairwise_iff_getElem.2 fun i j hi hj hij same => ?_
  refine (h j hj).ready.fresh ?_
  rw [← same]
  exact List.mem_take_iff_getElem.2 ⟨i, by omega, rfl⟩

/-- Along a greedy schedule every edge points forward. -/
theorem Greedy.forward {o : List String} (h : g.Greedy o) {a b : String} (hb : b ∈ o)
    (edge : g.HasEdge a b) : o.idxOf a < o.idxOf b := by
  have position := List.idxOf_lt_length_of_mem hb
  have next := h _ position
  rw [List.getElem_idxOf position] at next
  exact (List.mem_take_iff_idxOf_lt (h.closed hb edge)).1 (next.ready.served a edge)

-- ========================================================= unmet edges

/-- Nothing is unmet when all that a node depends on is done. -/
theorem unmet_eq_zero {done : List String} {x : String} :
    g.unmet done x = 0 ↔ ∀ d, g.HasEdge d x → d ∈ done := by
  unfold unmet
  rw [List.countP_eq_zero]
  refine ⟨?_, ?_⟩
  · intro h d edge
    simpa using h _ edge
  · intro h h edge
    obtain ⟨d, y⟩ := h
    simp only [Bool.and_eq_true, beq_iff_eq, Bool.not_eq_true', not_and, Bool.not_eq_false]
    intro h
    obtain rfl := h
    exact List.contains_iff_mem.2 (h d edge)

/-- Before anything is done all edges into a node are unmet. -/
theorem indegree_eq_unmet (x : String) : g.indegree x = g.unmet [] x := by
  unfold indegree unmet
  refine List.countP_congr fun e _ => ?_
  simp

/-- Into a node that is not listed no edge leads. -/
theorem WellFormed.unmet_eq_zero (wf : g.WellFormed) {done : List String} {x : String}
    (h : x ∉ g.nodes) : g.unmet done x = 0 :=
  Graph.unmet_eq_zero.2 fun _ edge => absurd (wf.ends edge).2 h

/-- What a node meets by being done is its edges, one for each time they are
listed. -/
theorem unmet_snoc {done : List String} {id : String} (fresh : id ∉ done) (x : String) :
    g.unmet done x = g.unmet (done ++ [id]) x + (g.dependentsOf id).count x := by
  unfold unmet dependentsOf
  rw [List.count, List.countP_map, List.countP_filter]
  induction g.edges with
  | nil => rfl
  | cons e es ih =>
    simp only [List.countP_cons, ih]
    by_cases hx : e.dependent = x
    · by_cases hid : e.dependency = id
      · subst hid
        simp [hx, fresh]
        omega
      · simp [hx, hid]
        omega
    · simp [hx]

-- ================================================================ steps

/-- The first member of a list that passes a test stands before all others
that do. -/
theorem idxOf_le_of_find? {l : List String} {test : String → Bool} {x y : String}
    (h : l.find? test = some x) (hy : y ∈ l) (passes : test y = true) :
    l.idxOf x ≤ l.idxOf y := by
  obtain ⟨hx, before, after, rfl, fails⟩ := List.find?_eq_some_iff_append.1 h
  have fresh : ∀ z, test z = true → z ∉ before := by
    intro z hz member
    have := fails z member
    simp [hz] at this
  rw [List.idxOf_append_of_notMem (fresh x hx), List.idxOf_append_of_notMem (fresh y passes),
    List.idxOf_cons_self]
  omega

namespace Consistent

/-- Before the first step nothing is scheduled, and every counter is the
number of edges into its node. -/
theorem start (wf : g.WellFormed) : g.Consistent g.start where
  greedy := greedy_nil
  waits_eq x := by
    show ((SortedMap.ofList (g.nodes.map fun id => (id, g.indegree id))).find? x).getD 0 = _
    rw [SortedMap.find?_ofList_map]
    split
    · exact indegree_eq_unmet x
    · next h => exact (wf.unmet_eq_zero h).symm
  ready_nodup := wf.nodup.filter _
  mem_ready x := by
    show x ∈ g.nodes.filter (fun id => g.indegree id == 0) ↔ g.Ready [] x
    rw [List.mem_filter, beq_iff_eq, indegree_eq_unmet, unmet_eq_zero]
    refine ⟨?_, ?_⟩
    · intro h
      obtain ⟨node, free⟩ := h
      exact ⟨node, List.not_mem_nil, free⟩
    · intro h
      exact ⟨h.node, h.served⟩

theorem settled (h : g.Consistent p) : p.Settled := by
  refine ⟨h.ready_nodup, fun x hx => ?_⟩
  rw [h.waits_eq]
  exact unmet_eq_zero.2 ((h.mem_ready x).1 hx).served

/-- The node taken from the queue is the one that goes next. -/
theorem goesNext (h : g.Consistent p) {id : String} (hid : g.next? p = some id) :
    g.GoesNext p.scheduled id where
  ready := (h.mem_ready id).1 (mem_ready_of_next? hid)
  earliest y hy := by
    refine idxOf_le_of_find? hid hy.node ?_
    exact List.contains_iff_mem.2 ((h.mem_ready y).2 hy)

/-- The queue after a step: a node can go next if it could before and is not
the scheduled one, or if the scheduled one was all it waited for. -/
theorem ready_snoc (wf : g.WellFormed) (h : g.Consistent p) {id : String}
    (next : g.GoesNext p.scheduled id) (x : String) :
    g.Ready (p.scheduled ++ [id]) x
      ↔ (x ≠ id ∧ g.Ready p.scheduled x)
        ∨ (0 < p.waits x ∧ p.waits x ≤ (g.dependentsOf id).count x) := by
  have parts := unmet_snoc (g := g) next.ready.fresh x
  rw [← h.waits_eq] at parts
  refine ⟨?_, ?_⟩
  · intro ready
    have met := unmet_eq_zero.2 ready.served
    have fresh : x ∉ p.scheduled ∧ x ≠ id := by simpa using ready.fresh
    by_cases waits : p.waits x = 0
    · refine Or.inl ⟨fresh.2, ready.node, fresh.1, unmet_eq_zero.1 ?_⟩
      rw [← h.waits_eq, waits]
    · exact Or.inr (by omega)
  · intro h
    rcases h with ⟨other, ready⟩ | ⟨waits, last⟩
    · have waits : p.waits x = 0 := by
        rw [h.waits_eq]
        exact unmet_eq_zero.2 ready.served
      exact ⟨ready.node, by simp [ready.fresh, other], unmet_eq_zero.1 (by omega)⟩
    · have edge : g.HasEdge id x := by
        have member : x ∈ g.dependentsOf id := List.count_pos_iff.1 (by omega)
        simp only [dependentsOf, List.mem_map, List.mem_filter, beq_iff_eq] at member
        obtain ⟨⟨d, y⟩, ⟨listed, rfl⟩, rfl⟩ := member
        exact listed
      refine ⟨(wf.ends edge).2, ?_, unmet_eq_zero.1 (by omega)⟩
      intro member
      rcases List.mem_append.1 member with member | member
      · exact next.ready.fresh (h.greedy.closed member edge)
      · obtain rfl := List.mem_singleton.1 member
        exact next.ready.fresh (next.ready.served x edge)

/-- A step keeps counters and queue in order, and the schedule greedy. -/
theorem schedule (wf : g.WellFormed) (h : g.Consistent p) {id : String}
    (hid : g.next? p = some id) : g.Consistent (g.schedule p id) := by
  have next := h.goesNext hid
  have scheduled : (g.schedule p id).scheduled = p.scheduled ++ [id] :=
    Progress.scheduled_foldl_release _ _
  have settled : (p.take id).Settled :=
    ⟨h.ready_nodup.erase id, fun x hx => h.settled.2 x (List.mem_of_mem_erase hx)⟩
  refine ⟨?_, fun x => ?_, (settled.foldl_release _).1, fun x => ?_⟩
  · rw [scheduled]
    exact h.greedy.snoc next
  · have counted : (g.schedule p id).waits x = p.waits x - (g.dependentsOf id).count x :=
      Progress.waits_foldl_release _ _ x
    have := unmet_snoc (g := g) next.ready.fresh x
    rw [counted, scheduled, h.waits_eq]
    omega
  · have queue : x ∈ (g.schedule p id).ready
        ↔ x ∈ p.ready.erase id ∨ (0 < p.waits x ∧ p.waits x ≤ (g.dependentsOf id).count x) :=
      Progress.mem_ready_foldl_release _ _ x
    rw [queue, scheduled, ready_snoc wf h next, h.ready_nodup.mem_erase_iff, h.mem_ready]

/-- What holds of every step holds when the queue is empty. -/
theorem finish (wf : g.WellFormed) {p : Progress} (h : g.Consistent p) :
    g.Consistent (g.finish p) ∧ g.next? (g.finish p) = none := by
  fun_induction Graph.finish g p with
  | case1 p empty => exact ⟨h, empty⟩
  | case2 p id hid ih => exact ih (h.schedule wf hid)

/-- With an empty queue, what is not scheduled waits for something that is
not scheduled either. -/
theorem exists_unscheduled_of_empty (wf : g.WellFormed) (h : g.Consistent p)
    (empty : g.next? p = none) {x : String} (node : x ∈ g.nodes) (fresh : x ∉ p.scheduled) :
    ∃ d, g.HasEdge d x ∧ d ∈ g.nodes ∧ d ∉ p.scheduled := by
  by_contra isolated
  have ready : g.Ready p.scheduled x := by
    refine ⟨node, fresh, fun d edge => ?_⟩
    by_contra waiting
    exact isolated ⟨d, edge, (wf.ends edge).1, waiting⟩
  have passed := List.find?_eq_none.1 empty x node
  exact passed (List.contains_iff_mem.2 ((h.mem_ready x).2 ready))

/-- A listed node waits for something exactly if it is left unscheduled when the
queue is empty. -/
theorem waits_pos_iff (wf : g.WellFormed) (h : g.Consistent p) (empty : g.next? p = none)
    {x : String} (node : x ∈ g.nodes) : 0 < p.waits x ↔ x ∉ p.scheduled := by
  rw [h.waits_eq]
  refine ⟨?_, ?_⟩
  · intro waits scheduled
    have met := unmet_eq_zero.2 fun d edge => h.greedy.closed scheduled edge
    omega
  · intro fresh
    obtain ⟨d, edge, -, waiting⟩ := exists_unscheduled_of_empty wf h empty node fresh
    refine Nat.pos_of_ne_zero fun met => ?_
    exact waiting (unmet_eq_zero.1 met d edge)

end Consistent

-- ============================================================ left waiting

/-- The nodes that wait for something, in the order of declaration. -/
def waiting (g : Graph) (p : Progress) : List String := g.nodes.filter fun id => 0 < p.waits id

theorem mem_waiting {x : String} : x ∈ g.waiting p ↔ x ∈ g.nodes ∧ 0 < p.waits x := by
  rw [waiting, List.mem_filter, decide_eq_true_eq]

namespace Consistent

/-- When the queue is empty, each node that waits does so for another of them. -/
theorem covered_waiting (wf : g.WellFormed) (h : g.Consistent p) (empty : g.next? p = none) :
    ∀ x ∈ g.waiting p, ∃ d ∈ g.waiting p, g.HasEdge d x := by
  intro x hx
  obtain ⟨node, waits⟩ := mem_waiting.1 hx
  have fresh := (h.waits_pos_iff wf empty node).1 waits
  obtain ⟨d, edge, left, unscheduled⟩ := h.exists_unscheduled_of_empty wf empty node fresh
  exact ⟨d, mem_waiting.2 ⟨left, (h.waits_pos_iff wf empty left).2 unscheduled⟩, edge⟩

/-- If the queue is empty before all nodes are scheduled, some node waits. -/
theorem waiting_ne_nil (wf : g.WellFormed) (h : g.Consistent p) (empty : g.next? p = none)
    (short : p.scheduled.length < g.nodes.length) : g.waiting p ≠ [] := by
  obtain ⟨x, node, fresh⟩ : ∃ x ∈ g.nodes, x ∉ p.scheduled := by
    by_contra all
    have covered : g.nodes ⊆ p.scheduled := by
      intro x node
      by_contra fresh
      exact all ⟨x, node, fresh⟩
    have := (wf.nodup.subperm covered).length_le
    omega
  exact List.ne_nil_of_mem (mem_waiting.2 ⟨node, (h.waits_pos_iff wf empty node).2 fresh⟩)

end Consistent
end Graph
end PartPlan
