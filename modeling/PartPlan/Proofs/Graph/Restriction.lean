/-
Graphs cut down to some of their nodes. If what is kept depends on nothing that
is not, the rest has no influence on when a kept node goes next: it can go next
in the smaller graph exactly when it can in the larger one. So the smaller graph
is ordered as the larger one is, with what was cut left out (`order_restrict`).

If moreover all that is kept is declared first, it is also built first: whatever
is kept and not yet built has, at its earliest, nothing to wait for, and comes
before all that is cut (`Greedy.kept_first`).
-/
import PartPlan.Proofs.Graph.Determined

namespace PartPlan
namespace Graph

/-- A graph without the nodes that are not kept and the edges that touch them. -/
def restrict (g : Graph) (keep : String → Bool) : Graph where
  nodes := g.nodes.filter keep
  edges := g.edges.filter fun e => keep e.dependency && keep e.dependent

/-- What is kept depends on nothing that is not. -/
def Closed (g : Graph) (keep : String → Bool) : Prop :=
  ∀ a b, g.HasEdge a b → keep b = true → keep a = true

variable {g : Graph} {keep : String → Bool} {o done rest : List String}

theorem hasEdge_restrict {a b : String} :
    (g.restrict keep).HasEdge a b ↔ g.HasEdge a b ∧ keep a = true ∧ keep b = true := by
  unfold HasEdge restrict
  rw [List.mem_filter, Bool.and_eq_true]

theorem mem_nodes_restrict {x : String} :
    x ∈ (g.restrict keep).nodes ↔ x ∈ g.nodes ∧ keep x = true := List.mem_filter

theorem WellFormed.restrict (wf : g.WellFormed) : (g.restrict keep).WellFormed where
  nodup := wf.nodup.filter keep
  ends := by
    intro a b edge
    obtain ⟨edge, kept, kept'⟩ := hasEdge_restrict.1 edge
    obtain ⟨node, node'⟩ := wf.ends edge
    exact ⟨mem_nodes_restrict.2 ⟨node, kept⟩, mem_nodes_restrict.2 ⟨node', kept'⟩⟩

-- ======================================================== smaller schedules

/-- What is left of a list is in the same order. -/
theorem idxOf_filter_le {l : List String} {x y : String} (hx : keep x = true)
    (before : l.idxOf x ≤ l.idxOf y) : (l.filter keep).idxOf x ≤ (l.filter keep).idxOf y := by
  induction l with
  | nil => exact Nat.le_refl _
  | cons a l ih =>
    by_cases first : a = x
    · subst first
      rw [List.filter_cons_of_pos hx, List.idxOf_cons_self]
      exact Nat.zero_le _
    · rw [List.idxOf_cons_ne _ first] at before
      have other : a ≠ y := by
        intro same
        rw [same, List.idxOf_cons_self] at before
        omega
      rw [List.idxOf_cons_ne _ other] at before
      have later := ih (Nat.le_of_succ_le_succ before)
      by_cases kept : keep a = true
      · rw [List.filter_cons_of_pos kept, List.idxOf_cons_ne _ first, List.idxOf_cons_ne _ other]
        exact Nat.succ_le_succ later
      · rwa [List.filter_cons_of_neg kept]

theorem Ready.of_restrict (closed : g.Closed keep) {y : String}
    (h : (g.restrict keep).Ready (done.filter keep) y) : g.Ready done y := by
  obtain ⟨node, kept⟩ := mem_nodes_restrict.1 h.node
  refine ⟨node, fun member => h.fresh (List.mem_filter.2 ⟨member, kept⟩), fun d edge => ?_⟩
  have edge' := hasEdge_restrict.2 ⟨edge, closed d y edge kept, kept⟩
  exact (List.mem_filter.1 (h.served d edge')).1

theorem Ready.restrict {x : String} (h : g.Ready done x) (kept : keep x = true) :
    (g.restrict keep).Ready (done.filter keep) x := by
  refine ⟨mem_nodes_restrict.2 ⟨h.node, kept⟩, fun member => ?_, fun d edge => ?_⟩
  · exact h.fresh (List.mem_filter.1 member).1
  · obtain ⟨edge, kept', -⟩ := hasEdge_restrict.1 edge
    exact List.mem_filter.2 ⟨h.served d edge, kept'⟩

/-- A kept node that goes next does so in the smaller graph. -/
theorem GoesNext.restrict (closed : g.Closed keep) {x : String} (h : g.GoesNext done x)
    (kept : keep x = true) : (g.restrict keep).GoesNext (done.filter keep) x := by
  refine ⟨h.ready.restrict kept, fun y ready => ?_⟩
  have earliest := h.earliest y (ready.of_restrict closed)
  exact idxOf_filter_le kept earliest

theorem greedy_concat {x : String} :
    g.Greedy (o ++ [x]) ↔ g.Greedy o ∧ g.GoesNext o x := by
  constructor
  · intro h
    refine ⟨fun k hk => ?_, h.goesNext⟩
    have next := h k (by rw [List.length_append]; omega)
    rwa [List.take_append_of_le_length hk.le, List.getElem_append_left hk] at next
  · exact fun h => h.1.snoc h.2

theorem Greedy.restrict (closed : g.Closed keep) (h : g.Greedy o) :
    (g.restrict keep).Greedy (o.filter keep) := by
  induction o using List.reverseRecOn with
  | nil => exact greedy_nil
  | append_singleton o x ih =>
    obtain ⟨greedy, next⟩ := greedy_concat.1 h
    rw [List.filter_append]
    by_cases kept : keep x = true
    · rw [List.filter_cons_of_pos kept]
      exact (ih greedy).snoc (next.restrict closed kept)
    · rw [List.filter_cons_of_neg kept, List.filter_nil, List.append_nil]
      exact ih greedy

/-- What is kept of a graph is ordered as before. -/
theorem order_restrict (closed : g.Closed keep) (h : g.order = .ok o) :
    (g.restrict keep).order = .ok (o.filter keep) := by
  obtain ⟨wf, greedy, perm⟩ := order_eq_ok.1 h
  exact order_eq_ok.2 ⟨wf.restrict, greedy.restrict closed, perm.filter keep⟩

-- ================================================ kept nodes declared first

/-- No node that is cut is declared before one that is kept. -/
def KeptFirst (keep : String → Bool) (l : List String) : Prop :=
  l.Pairwise fun a b => keep b = true → keep a = true

/-- A list in which what is kept comes first is that and the rest. -/
theorem KeptFirst.eq_append {l : List String} (h : KeptFirst keep l) :
    l = l.filter keep ++ l.filter (! keep ·) := by
  induction l with
  | nil => rfl
  | cons a l ih =>
    obtain ⟨first, later⟩ := List.pairwise_cons.1 h
    by_cases kept : keep a = true
    · rw [List.filter_cons_of_pos kept, List.filter_cons_of_neg (by simp [kept]),
        List.cons_append, ← ih later]
    · have none_kept : l.filter keep = [] :=
        List.filter_eq_nil_iff.2 fun b hb kept' => kept (first b hb kept')
      have rest := ih later
      rw [none_kept, List.nil_append] at rest
      rw [List.filter_cons_of_neg kept, List.filter_cons_of_pos (by simp [kept]), none_kept,
        List.nil_append, ← rest]

theorem KeptFirst.of_idxOf_le {l : List String} (h : KeptFirst keep l) {x y : String} (hx : x ∈ l)
    (hy : y ∈ l) (before : l.idxOf x ≤ l.idxOf y) (kept : keep y = true) : keep x = true := by
  rcases Nat.lt_or_eq_of_le before with less | same
  · have ordered := List.pairwise_iff_getElem.1 h _ _ (List.idxOf_lt_length_of_mem hx)
      (List.idxOf_lt_length_of_mem hy) less
    rw [List.getElem_idxOf, List.getElem_idxOf] at ordered
    exact ordered kept
  · rwa [(List.idxOf_inj hx).1 same]

/-- As long as something kept is to come, something kept goes next. -/
theorem Greedy.kept_next (closed : g.Closed keep) (first : KeptFirst keep g.nodes) {x : String}
    (h : g.Greedy (done ++ x :: rest)) {y : String} (hy : y ∈ x :: rest) (kept : keep y = true) :
    keep x = true := by
  -- of what is kept and to come, the next one waits for nothing that is to come
  obtain ⟨z, found⟩ := Option.isSome_iff_exists.1 (List.find?_isSome.2 ⟨y, hy, kept⟩)
  obtain ⟨kept, before, after, e, cut⟩ := List.find?_eq_some_iff_append.1 found
  have upto : g.Greedy ((done ++ before) ++ z :: after) := by
    rwa [List.append_assoc, ← e]
  obtain ⟨node, fresh, served⟩ := upto.goesNext.ready
  have ready : g.Ready done z := by
    refine ⟨node, fun member => fresh (List.mem_append_left _ member), fun d edge => ?_⟩
    rcases List.mem_append.1 (served d edge) with earlier | member
    · exact earlier
    · have left_out := cut d member
      rw [closed d z edge kept] at left_out
      cases left_out
  have next := h.goesNext
  exact first.of_idxOf_le next.ready.node node (next.earliest z ready) kept

/-- If all that is kept is declared first, it is built first. -/
theorem Greedy.kept_first (closed : g.Closed keep) (first : KeptFirst keep g.nodes)
    (h : g.Greedy (done ++ rest)) : KeptFirst keep rest := by
  induction rest generalizing done with
  | nil => exact List.Pairwise.nil
  | cons x rest ih =>
    refine List.pairwise_cons.2 ⟨fun y hy kept => ?_, ?_⟩
    · exact h.kept_next closed first (List.mem_cons_of_mem _ hy) kept
    · have h' : g.Greedy ((done ++ [x]) ++ rest) := by
        rwa [List.append_assoc, List.singleton_append]
      exact ih h'

end Graph
end PartPlan
