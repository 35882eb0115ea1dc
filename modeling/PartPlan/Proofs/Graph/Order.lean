/-
The build order of an arbitrary graph, with repeated nodes, repeated edges,
loops and stray edges. `Graph.Outcome` lists the four ways ordering can end,
each with what has then been found out about the graph; since the four
findings exclude each other, each outcome happens exactly when its finding
holds.

A greedy schedule of all nodes is determined by the graph. It comes first
among all orders that follow the edges, compared place by place by
declaration.
-/
import Mathlib.Data.List.Lex
import PartPlan.Proofs.Graph.Cycle

namespace PartPlan
namespace Graph

variable {g : Graph}

-- ==================================================== linear extensions

/-- An order of all nodes in which every edge points forward. -/
structure IsLinearExtension (g : Graph) (o : List String) : Prop where
  perm : o.Perm g.nodes
  forward : ∀ a b, g.HasEdge a b → o.idxOf a < o.idxOf b

/-- A graph with a linear extension has no cycle: positions grow along
edges. -/
theorem IsLinearExtension.acyclic {o : List String} (h : g.IsLinearExtension o) : g.Acyclic := by
  have grows : ∀ a b, Relation.TransGen g.HasEdge a b → o.idxOf a < o.idxOf b := by
    intro a b path
    induction path with
    | single edge => exact h.forward _ _ edge
    | tail _ edge ih => exact Nat.lt_trans ih (h.forward _ _ edge)
  exact fun x loop => Nat.lt_irrefl _ (grows x x loop)

/-- A greedy schedule of all nodes is a linear extension. -/
theorem Greedy.isLinearExtension (wf : g.WellFormed) {o : List String} (h : g.Greedy o)
    (perm : o.Perm g.nodes) : g.IsLinearExtension o where
  perm := perm
  forward _ _ edge := h.forward (perm.mem_iff.2 (wf.ends edge).2) edge

/-- In a linear extension, what stands after some nodes can go next. -/
theorem IsLinearExtension.ready (wf : g.WellFormed) {done rest : List String} {x : String}
    (h : g.IsLinearExtension (done ++ x :: rest)) : g.Ready done x := by
  have nodup := h.perm.nodup_iff.2 wf.nodup
  have fresh : x ∉ done := by
    intro member
    exact (List.nodup_append.1 nodup).2.2 x member x List.mem_cons_self rfl
  refine ⟨h.perm.mem_iff.1 (by simp), fresh, fun d edge => ?_⟩
  have earlier := h.forward d x edge
  rw [List.idxOf_append_of_notMem fresh, List.idxOf_cons_self, Nat.add_zero] at earlier
  by_contra late
  rw [List.idxOf_append_of_notMem late] at earlier
  omega

/-- A greedy schedule comes before every other linear extension, place by
place by declaration. -/
theorem Greedy.eq_or_lex (wf : g.WellFormed) {done rest other : List String}
    (greedy : g.Greedy (done ++ rest)) (same : rest.length = other.length)
    (h : g.IsLinearExtension (done ++ other)) :
    rest = other
      ∨ List.Lex (· < ·) (rest.map g.nodes.idxOf) (other.map g.nodes.idxOf) := by
  induction rest generalizing done other with
  | nil => exact Or.inl (List.length_eq_zero_iff.1 same.symm).symm
  | cons x rest ih =>
    cases other with
    | nil => simp at same
    | cons y other =>
      have next := greedy.goesNext
      by_cases e : x = y
      · subst e
        have greedy' : g.Greedy ((done ++ [x]) ++ rest) := by simpa using greedy
        have h' : g.IsLinearExtension ((done ++ [x]) ++ other) := by simpa using h
        have tails := ih greedy' (Nat.succ.inj same) h'
        exact tails.imp (congrArg (x :: ·)) List.Lex.cons
      · have earliest := next.earliest y (h.ready wf)
        have differs : g.nodes.idxOf x ≠ g.nodes.idxOf y :=
          fun i => e ((List.idxOf_inj next.ready.node).1 i)
        have before : g.nodes.idxOf x < g.nodes.idxOf y := by omega
        exact Or.inr (List.Lex.rel before)

-- ============================================================= findings

/-- The edges of a well-formed graph have no unknown ends. -/
theorem WellFormed.no_stray (wf : g.WellFormed) :
    ¬ ∃ a b, g.HasEdge a b ∧ (a ∉ g.nodes ∨ b ∉ g.nodes) := by
  intro h
  obtain ⟨a, b, edge, unknown | unknown⟩ := h
  · exact unknown (wf.ends edge).1
  · exact unknown (wf.ends edge).2

/-- If no id is found a second time, none stands twice. -/
theorem nodup_of_repeated?_eq_none {seen l : List String} (h : repeated? seen l = none) :
    l.Nodup ∧ ∀ x ∈ l, x ∉ seen := by
  induction l generalizing seen with
  | nil => exact ⟨List.nodup_nil, fun _ hx => absurd hx List.not_mem_nil⟩
  | cons id l ih =>
    unfold repeated? at h
    split at h
    · cases h
    · next new =>
      obtain ⟨nodup, fresh⟩ := ih h
      refine ⟨List.nodup_cons.2 ⟨fun later => fresh id later List.mem_cons_self, nodup⟩, ?_⟩
      intro x hx
      rcases List.mem_cons.1 hx with rfl | hx
      · exact new
      · exact fun met => fresh x hx (List.mem_cons_of_mem _ met)

/-- An id that is found a second time stands twice. -/
theorem two_le_count_of_repeated? {seen l : List String} {id : String}
    (h : repeated? seen l = some id) : 2 ≤ (seen ++ l).count id := by
  induction l generalizing seen with
  | nil => cases h
  | cons x l ih =>
    unfold repeated? at h
    split at h
    · next met =>
      obtain rfl := Option.some.inj h
      have := List.count_pos_iff.2 met
      rw [List.count_append, List.count_cons_self]
      omega
    · have moved : (x :: seen ++ l).count id = (seen ++ x :: l).count id :=
        (List.perm_middle.symm).count_eq id
      rw [← moved]
      exact ih h

/-- If there is no stray edge, every edge joins nodes. -/
theorem ends_of_strayEdge?_eq_none (h : g.strayEdge? = none) {a b : String}
    (edge : g.HasEdge a b) : a ∈ g.nodes ∧ b ∈ g.nodes := by
  have joined := List.find?_eq_none.1 h ⟨a, b⟩ edge
  simpa using joined

/-- A stray edge has an end that is no node. -/
theorem unknown_of_strayEdge? {e : Edge} (h : g.strayEdge? = some e) :
    g.HasEdge e.dependency e.dependent ∧ (e.dependency ∉ g.nodes ∨ e.dependent ∉ g.nodes) := by
  have unknown : (!(g.nodes.contains e.dependency && g.nodes.contains e.dependent)) = true :=
    List.find?_some (p := fun e : Edge =>
      !(g.nodes.contains e.dependency && g.nodes.contains e.dependent)) h
  refine ⟨List.mem_of_find?_eq_some h, ?_⟩
  by_cases known : e.dependency ∈ g.nodes
  · exact Or.inr (by simpa [known] using unknown)
  · exact Or.inl known

/-- A well-formed graph is ordered by scheduling it. -/
theorem WellFormed.order_eq (wf : g.WellFormed) :
    g.order = if (g.finish g.start).scheduled.length < g.nodes.length then
        .error (.cycle (g.cycleAmong (g.waiting (g.finish g.start))))
      else .ok (g.finish g.start).scheduled := by
  have unrepeated : repeated? [] g.nodes = none := by
    refine Option.eq_none_iff_forall_ne_some.2 fun id twice => ?_
    have often := two_le_count_of_repeated? twice
    have once := List.nodup_iff_count.1 wf.nodup id
    rw [List.nil_append] at often
    omega
  have joined : g.strayEdge? = none := by
    refine Option.eq_none_iff_forall_ne_some.2 fun e stray => ?_
    obtain ⟨edge, unknown⟩ := unknown_of_strayEdge? stray
    exact wf.no_stray ⟨_, _, edge, unknown⟩
  unfold order
  rw [unrepeated, joined]
  rfl

/-- How ordering ends, and what has then been found out. -/
inductive Outcome (g : Graph) : Except GraphError (List String) → Prop
  | repeated {id : String} (twice : 2 ≤ g.nodes.count id) :
      Outcome g (.error (.featureDuplicate id))
  | stray {a b : String} (nodup : g.nodes.Nodup) (edge : g.HasEdge a b)
      (unknown : a ∉ g.nodes ∨ b ∉ g.nodes) : Outcome g (.error (.edgeUnknown a b))
  | ordered {o : List String} (wf : g.WellFormed) (greedy : g.Greedy o) (perm : o.Perm g.nodes) :
      Outcome g (.ok o)
  | cyclic {vs : List String} (wf : g.WellFormed) (cycle : g.IsCycle vs) :
      Outcome g (.error (.cycle vs))

/-- When the queue is empty, either all nodes are scheduled or those that
wait for something lead to a cycle. -/
theorem Consistent.outcome (wf : g.WellFormed) {p : Progress} (h : g.Consistent p)
    (empty : g.next? p = none) :
    Outcome g (if p.scheduled.length < g.nodes.length then
      .error (.cycle (g.cycleAmong (g.waiting p))) else .ok p.scheduled) := by
  have subperm := h.greedy.nodup.subperm h.greedy.subset
  split
  · next short =>
    have found : g.IsCycle (g.cycleAmong (g.waiting p)) := isCycle_cycleAmong
      (h.waiting_ne_nil wf empty short) (wf.nodup.filter _) (h.covered_waiting wf empty)
    exact .cyclic wf found
  · next long => exact .ordered wf h.greedy (subperm.perm_of_length_le (by omega))

/-- Every graph has one of the four outcomes. -/
theorem outcome_order (g : Graph) : Outcome g g.order := by
  unfold order
  split
  · next id hid => exact .repeated (two_le_count_of_repeated? hid)
  · next hnone =>
    have nodup := (nodup_of_repeated?_eq_none hnone).1
    split
    · next e he =>
      obtain ⟨edge, unknown⟩ := unknown_of_strayEdge? he
      exact .stray nodup edge unknown
    · next hstray =>
      have wf : g.WellFormed := ⟨nodup, ends_of_strayEdge?_eq_none hstray⟩
      obtain ⟨h, empty⟩ := (Consistent.start wf).finish wf
      exact h.outcome wf empty

-- ================================================== total correctness

/-- Ordering is totally correct. A repeated node is reported exactly when
there is one, and otherwise an edge with an unknown end exactly when there is
one. Of the other graphs the acyclic ones have an order, and of the rest a
cycle is reported.

An order is the linear extension in which each node is the earliest declared
one whose dependencies stand before it; it comes first among all linear
extensions, compared place by place by declaration. -/
theorem order_outcomes (g : Graph) :
    ((∃ id, g.order = .error (.featureDuplicate id)) ↔ ¬ g.nodes.Nodup)
      ∧ ((∃ a b, g.order = .error (.edgeUnknown a b))
        ↔ g.nodes.Nodup ∧ ∃ a b, g.HasEdge a b ∧ (a ∉ g.nodes ∨ b ∉ g.nodes))
      ∧ ((∃ o, g.order = .ok o) ↔ g.WellFormed ∧ g.Acyclic)
      ∧ ((∃ vs, g.order = .error (.cycle vs)) ↔ g.WellFormed ∧ ¬ g.Acyclic)
      ∧ (∀ o, g.order = .ok o → g.IsLinearExtension o ∧ g.Greedy o
        ∧ ∀ o', g.IsLinearExtension o' →
          o = o' ∨ List.Lex (· < ·) (o.map g.nodes.idxOf) (o'.map g.nodes.idxOf))
      ∧ ∀ vs, g.order = .error (.cycle vs) → g.IsCycle vs ∧ vs ⊆ g.nodes := by
  have outcome := outcome_order g
  generalize g.order = result at outcome ⊢
  cases outcome with
  | @repeated id twice =>
    have double : ¬ g.nodes.Nodup := by
      intro nodup
      have once := List.nodup_iff_count.1 nodup id
      omega
    have ill : ¬ g.WellFormed := fun wf => double wf.nodup
    simp [double, ill]
  | @stray a b nodup edge unknown =>
    have found : ∃ a b, g.HasEdge a b ∧ (a ∉ g.nodes ∨ b ∉ g.nodes) := ⟨a, b, edge, unknown⟩
    have ill : ¬ g.WellFormed := fun wf => wf.no_stray found
    simp [nodup, ill, found]
  | @ordered o wf greedy perm =>
    have extension := greedy.isLinearExtension wf perm
    have first : ∀ o', g.IsLinearExtension o' →
        o = o' ∨ List.Lex (· < ·) (o.map g.nodes.idxOf) (o'.map g.nodes.idxOf) := by
      intro o' h
      have same : o.length = o'.length := perm.length_eq.trans h.perm.length_eq.symm
      exact Greedy.eq_or_lex wf (show g.Greedy ([] ++ o) from greedy) same h
    refine ⟨?_, ?_, ?_, ?_, ?_, ?_⟩
    · simp [wf.nodup]
    · simp only [wf.no_stray]
      simp
    · simp [wf, extension.acyclic]
    · simp [extension.acyclic]
    · intro _ h
      cases h
      exact ⟨extension, greedy, first⟩
    · intro _ h
      cases h
  | @cyclic vs wf cycle =>
    refine ⟨?_, ?_, ?_, ?_, ?_, ?_⟩
    · simp [wf.nodup]
    · simp only [wf.no_stray]
      simp
    · simp [cycle.not_acyclic]
    · simp [wf, cycle.not_acyclic]
    · intro _ h
      cases h
    · intro _ h
      cases h
      exact ⟨cycle, cycle.subset wf⟩

end Graph
end PartPlan
