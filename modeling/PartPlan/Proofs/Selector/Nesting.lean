/-
Selectors inside selectors. A rank rule may have a selector for its target,
which may again have rules, so what is said of a selector is often said of
all that occur in it, at any depth. `Selector.Within` is that relation, and
`Selector.induction` the way to prove something of every selector: for a
query it may be assumed of the targets of its rules.
-/
import PartPlan.Selector.Anchors

namespace PartPlan

/-- What holds of named outputs, and of a query if it holds of the targets
of its rules, holds of every selector. -/
@[elab_as_elim]
theorem Selector.induction {motive : Selector → Prop} (named : ∀ name, motive (.named name))
    (query : ∀ kind ps rs, (∀ t, RankRule.closestTo t ∈ rs → motive t) →
      motive (.query kind ps rs)) (s : Selector) : motive s :=
  match s with
  | .named name => named name
  | .query kind ps rs => query kind ps rs fun t _ht => Selector.induction named query t
termination_by sizeOf s
decreasing_by
  have smaller := List.sizeOf_lt_of_mem _ht
  simp only [RankRule.closestTo.sizeOf_spec] at smaller
  simp only [Selector.query.sizeOf_spec]
  omega

/-- A selector occurs in another: it is that selector, or occurs in the
target of one of its rules. -/
inductive Selector.Within : Selector → Selector → Prop
  | here (s : Selector) : Within s s
  | target {s t : Selector} {kind : SelectionKind} {ps : List Predicate} {rs : List RankRule}
      (rule : .closestTo t ∈ rs) (within : Within s t) : Within s (.query kind ps rs)

/-- The anchors a selector has on its own, without the targets of its rules. -/
def Selector.ownAnchors : Selector → List Anchor
  | .named name => [.output name]
  | .query kind ps rs => queryAnchors kind ps rs

theorem mem_rulesAnchors {a : Anchor} {rs : List RankRule} :
    a ∈ rulesAnchors rs ↔ ∃ t, .closestTo t ∈ rs ∧ a ∈ t.anchors := by
  induction rs with
  | nil => simp [rulesAnchors]
  | cons r rs ih =>
    rw [rulesAnchors, List.mem_append, ih]
    cases r <;> simp [RankRule.anchors]

/-- The anchors of a selector are those of the selectors that occur in it. -/
theorem Selector.mem_anchors {a : Anchor} {s : Selector} :
    a ∈ s.anchors ↔ ∃ t : Selector, t.Within s ∧ a ∈ t.ownAnchors := by
  induction s using Selector.induction with
  | named name =>
    rw [Selector.anchors]
    refine ⟨?_, ?_⟩
    · exact fun h => ⟨_, .here _, h⟩
    · intro h
      obtain ⟨t, within, h⟩ := h
      cases within
      exact h
  | query kind ps rs ih =>
    rw [Selector.anchors, List.mem_append, mem_rulesAnchors]
    refine ⟨?_, ?_⟩
    · intro h
      rcases h with own | ⟨t, rule, h⟩
      · exact ⟨_, .here _, own⟩
      · obtain ⟨u, within, h⟩ := (ih t rule).1 h
        exact ⟨u, .target rule within, h⟩
    · intro h
      obtain ⟨t, within, h⟩ := h
      cases within with
      | here => exact Or.inl h
      | target rule within => exact Or.inr ⟨_, rule, (ih _ rule).2 ⟨t, within, h⟩⟩

-- ========================================================== own anchors

theorem mem_creators {ps : List Predicate} {id : String} :
    id ∈ ps.filterMap Predicate.creator? ↔ Predicate.createdBy id ∈ ps := by
  rw [List.mem_filterMap]
  refine ⟨?_, ?_⟩
  · intro h
    obtain ⟨p, hp, h⟩ := h
    cases p with
    | createdBy feature =>
      cases h
      exact hp
    | planar => cases h
    | normal d => cases h
    | role value => cases h
  · exact fun h => ⟨_, h, rfl⟩

/-- A query is anchored to the creators its predicates name. -/
theorem creator_mem_queryAnchors {kind : SelectionKind} {ps : List Predicate}
    {rs : List RankRule} {id : String} :
    Anchor.creator id ∈ queryAnchors kind ps rs ↔ Predicate.createdBy id ∈ ps := by
  rw [← mem_creators]
  unfold queryAnchors
  cases ps.filterMap Predicate.creator? with
  | nil => simp
  | cons c cs => simp

/-- A query is free if its predicates name no creator. -/
theorem free_mem_queryAnchors {kind : SelectionKind} {ps : List Predicate}
    {rs : List RankRule} {q : Selector} :
    Anchor.free q ∈ queryAnchors kind ps rs
      ↔ q = .query kind ps rs ∧ ∀ id, Predicate.createdBy id ∉ ps := by
  have none_named : (∀ id, Predicate.createdBy id ∉ ps) ↔ ps.filterMap Predicate.creator? = [] := by
    simp only [← mem_creators, List.eq_nil_iff_forall_not_mem]
  rw [none_named]
  unfold queryAnchors
  cases ps.filterMap Predicate.creator? with
  | nil => simp
  | cons c cs => simp

theorem output_not_mem_queryAnchors {kind : SelectionKind} {ps : List Predicate}
    {rs : List RankRule} {name : String} : Anchor.output name ∉ queryAnchors kind ps rs := by
  unfold queryAnchors
  cases ps.filterMap Predicate.creator? with
  | nil => simp
  | cons c cs => simp

namespace Selector

variable {s : Selector}

/-- The outputs a selector is anchored to are those it names at any depth. -/
theorem output_mem_anchors {name : String} :
    Anchor.output name ∈ s.anchors ↔ (Selector.named name).Within s := by
  rw [mem_anchors]
  refine ⟨?_, ?_⟩
  · intro h
    obtain ⟨t, within, h⟩ := h
    cases t with
    | named n =>
      obtain rfl : name = n := by simpa [ownAnchors] using h
      exact within
    | query kind ps rs => exact absurd h output_not_mem_queryAnchors
  · exact fun within => ⟨_, within, List.mem_singleton.2 rfl⟩

/-- The creators a selector is anchored to are those its queries name at any
depth. -/
theorem creator_mem_anchors {id : String} :
    Anchor.creator id ∈ s.anchors
      ↔ ∃ kind ps rs, (query kind ps rs).Within s ∧ Predicate.createdBy id ∈ ps := by
  rw [mem_anchors]
  refine ⟨?_, ?_⟩
  · intro h
    obtain ⟨t, within, h⟩ := h
    cases t with
    | named n => simp [ownAnchors] at h
    | query kind ps rs => exact ⟨kind, ps, rs, within, creator_mem_queryAnchors.1 h⟩
  · intro h
    obtain ⟨kind, ps, rs, within, h⟩ := h
    exact ⟨_, within, creator_mem_queryAnchors.2 h⟩

/-- The free anchors of a selector are the queries in it, at any depth, that
name no creator. -/
theorem free_mem_anchors {q : Selector} :
    Anchor.free q ∈ s.anchors
      ↔ ∃ kind ps rs, q = query kind ps rs ∧ q.Within s ∧ ∀ id, Predicate.createdBy id ∉ ps := by
  rw [mem_anchors]
  refine ⟨?_, ?_⟩
  · intro h
    obtain ⟨t, within, h⟩ := h
    cases t with
    | named n => simp [ownAnchors] at h
    | query kind ps rs =>
      obtain ⟨rfl, none_named⟩ := free_mem_queryAnchors.1 h
      exact ⟨kind, ps, rs, rfl, within, none_named⟩
  · intro h
    obtain ⟨kind, ps, rs, rfl, within, none_named⟩ := h
    exact ⟨_, within, free_mem_queryAnchors.2 ⟨rfl, none_named⟩⟩

end Selector
end PartPlan
