/-
What the normal form of a selector looks like, and that it is final. A selector
is in normal form if none of its lists, at any depth, has a member twice;
`Selector.IsNormal` says so without mention of how repetitions are removed. A
normal form is one, and bringing to normal form leaves such a selector alone.
-/
import Mathlib.Data.List.Nodup
import PartPlan.Proofs.Selector.Nesting
import PartPlan.Selector.Normal

namespace PartPlan

-- ====================================================== first occurrences

section FirstOccurrences

variable {α : Type} [DecidableEq α] {l : List α}

theorem firstOccurrences_sublist (l : List α) : (firstOccurrences l).Sublist l := by
  induction l with
  | nil => exact List.Sublist.refl _
  | cons a l ih =>
    rw [firstOccurrences]
    exact (List.filter_sublist.trans ih).cons_cons a

theorem nodup_firstOccurrences (l : List α) : (firstOccurrences l).Nodup := by
  induction l with
  | nil => exact List.nodup_nil
  | cons a l ih =>
    rw [firstOccurrences, List.nodup_cons]
    refine ⟨fun again => ?_, ih.filter _⟩
    have other := (List.mem_filter.1 again).2
    simp at other

/-- Where nothing is repeated, nothing is left out. -/
theorem firstOccurrences_eq_self (distinct : l.Nodup) : firstOccurrences l = l := by
  induction l with
  | nil => rfl
  | cons a l ih =>
    obtain ⟨fresh, rest⟩ := List.nodup_cons.1 distinct
    have others : l.filter (· ≠ a) = l := by
      rw [List.filter_eq_self]
      intro b hb
      exact decide_eq_true fun same => fresh (same ▸ hb)
    rw [firstOccurrences, ih rest, others]

/-- A map that keeps different members different can be applied before or after
repetitions are removed. -/
theorem firstOccurrences_map {β : Type} [DecidableEq β] {f : α → β}
    (inj : ∀ a ∈ l, ∀ b ∈ l, f a = f b → a = b) :
    firstOccurrences (l.map f) = (firstOccurrences l).map f := by
  induction l with
  | nil => rfl
  | cons a l ih =>
    have inside := List.cons_subset_cons a (firstOccurrences_sublist l).subset
    rw [List.map_cons, firstOccurrences, firstOccurrences, List.map_cons,
      ih fun b hb c hc => inj b (List.mem_cons_of_mem _ hb) c (List.mem_cons_of_mem _ hc),
      List.filter_map]
    refine congrArg (f a :: List.map f ·) (List.filter_congr fun b hb => ?_)
    have member := inside (List.mem_cons_of_mem _ hb)
    refine decide_eq_decide.2 (not_congr ⟨fun same => ?_, fun same => congrArg f same⟩)
    exact inj b member a List.mem_cons_self same

end FirstOccurrences

-- ============================================================ normal forms

/-- No list of a selector has a member twice, at any depth. -/
inductive Selector.IsNormal : Selector → Prop
  | named (name : String) : IsNormal (.named name)
  | query {kind : SelectionKind} {ps : List Predicate} {rs : List RankRule}
      (predicates : ps.Nodup) (rules : rs.Nodup)
      (targets : ∀ t, RankRule.closestTo t ∈ rs → IsNormal t) : IsNormal (.query kind ps rs)

theorem normalRules_eq_map (rs : List RankRule) : normalRules rs = rs.map RankRule.normal := by
  induction rs with
  | nil => rfl
  | cons r rs ih => rw [normalRules, ih, List.map_cons]

theorem RankRule.normal_eq_closestTo {r : RankRule} {t : Selector} :
    r.normal = .closestTo t ↔ ∃ s, r = .closestTo s ∧ s.normal = t := by
  cases r <;> simp [RankRule.normal]

namespace Selector

theorem isNormal_normal (s : Selector) : s.normal.IsNormal := by
  induction s using Selector.induction with
  | named name =>
    rw [Selector.normal]
    exact .named name
  | query kind ps rs ih =>
    rw [Selector.normal, normalRules_eq_map]
    refine .query (nodup_firstOccurrences _) (nodup_firstOccurrences _) fun t ht => ?_
    obtain ⟨r, hr, same⟩ := List.mem_map.1 ((firstOccurrences_sublist _).subset ht)
    obtain ⟨s, rfl, rfl⟩ := RankRule.normal_eq_closestTo.1 same
    exact ih s hr

/-- A selector in normal form is its own normal form. -/
theorem IsNormal.normal_eq {s : Selector} (h : s.IsNormal) : s.normal = s := by
  induction h with
  | named name => rw [Selector.normal]
  | @query kind ps rs predicates rules targets ih =>
    have kept : rs.map RankRule.normal = rs := by
      refine (List.map_congr_left fun r hr => ?_).trans (List.map_id rs)
      cases r with
      | closestTo t => rw [RankRule.normal, ih t hr, id_eq]
      | _ => rfl
    rw [Selector.normal, normalRules_eq_map, kept, firstOccurrences_eq_self predicates,
      firstOccurrences_eq_self rules]

@[simp] theorem normal_normal (s : Selector) : s.normal.normal = s.normal :=
  s.isNormal_normal.normal_eq

end Selector
end PartPlan
