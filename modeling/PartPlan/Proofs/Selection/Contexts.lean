/-
One selector in two contexts. All that resolution asks of a context is which
selections are registered under the names that occur in the selector, and for each
query which selections satisfy its predicates. If what two contexts answer is
related, and the relation is one that ranking keeps, then the selector stands for
related selections in both (`AskedAlike.resolveAll`).

Targets of rules are resolved to one selection, so about them the relation must say
more: lists of one selection are only related if it is the same selection.
-/
import PartPlan.Proofs.Checked
import PartPlan.Proofs.Selection.Repetition
import PartPlan.Proofs.Selector.Nesting

namespace PartPlan

open Checked (Corresponds)

/-- A relation on lists of candidates, and one on errors, that every step of
ranking keeps. -/
structure KeptByRanking (E : SelectorError → SelectorError → Prop)
    (R : List Selection → List Selection → Prop) : Prop where
  refl : ∀ e, E e e
  single : ∀ x, R [x] [x]
  unique : ∀ {x y}, R [x] [y] → x = y
  length : ∀ {cs cs'}, R cs cs' → cs.length = cs'.length
  ambiguous : ∀ {cs cs'} (selector : String), R cs cs' →
    E (.ambiguous selector (cs.map Selection.id)) (.ambiguous selector (cs'.map Selection.id))
  best : ∀ {cs cs'} (r : Scorer), R cs cs' →
    Corresponds E R ((r.best cs).mapError .metaMissing) ((r.best cs').mapError .metaMissing)

/-- Two contexts give related answers to what a selector asks of them. -/
structure AskedAlike (E : SelectorError → SelectorError → Prop)
    (R : List Selection → List Selection → Prop) (c c' : ResolutionContext) (s : Selector) :
    Prop where
  named : ∀ name, (Selector.named name).Within s → c.named.find? name = c'.named.find? name
  candidates : ∀ kind ps rs, (Selector.query kind ps rs).Within s →
    Corresponds E R
      ((satisfying ps (c.selections.filter (·.kind == kind))).mapError .metaMissing)
      ((satisfying ps (c'.selections.filter (·.kind == kind))).mapError .metaMissing)

variable {E : SelectorError → SelectorError → Prop} {R : List Selection → List Selection → Prop}
  {c c' : ResolutionContext} {cs cs' : List Selection}

theorem AskedAlike.target {kind : SelectionKind} {ps : List Predicate} {rs : List RankRule}
    {t : Selector} (h : AskedAlike E R c c' (.query kind ps rs))
    (rule : RankRule.closestTo t ∈ rs) : AskedAlike E R c c' t where
  named name within := h.named name (.target rule within)
  candidates kind' ps' rs' within := h.candidates kind' ps' rs' (.target rule within)

namespace KeptByRanking

variable (kept : KeptByRanking E R)
include kept

theorem isEmpty_eq (h : R cs cs') : cs.isEmpty = cs'.isEmpty := by
  rw [Bool.eq_iff_iff, List.isEmpty_iff_length_eq_zero, List.isEmpty_iff_length_eq_zero,
    kept.length h]

/-- Of related lists both are one selection, and then the same one, or neither. -/
theorem exactlyOne (s : Selector) (h : R cs cs') :
    Corresponds E Eq (exactlyOne s cs) (exactlyOne s cs') := by
  have same := kept.length h
  match cs, cs' with
  | [], [] => exact .error (kept.refl _)
  | [x], [y] => exact .ok (kept.unique h)
  | _ :: _ :: _, _ :: _ :: _ => exact .error (kept.ambiguous _ h)

theorem prepare {r : RankRule}
    (targets : ∀ t, r = .closestTo t → Corresponds E R (t.resolveAll c) (t.resolveAll c')) :
    Corresponds E Eq (r.prepare c) (r.prepare c') := by
  cases r with
  | maxArea => exact .ok rfl
  | minZ => exact .ok rfl
  | maxZ => exact .ok rfl
  | closestTo t =>
    rw [RankRule.prepare, RankRule.prepare]
    refine (targets t rfl).bind fun found found' related => ?_
    refine (kept.exactlyOne t related).bind fun reference reference' same => ?_
    rw [same]
    exact Corresponds.refl kept.refl (fun _ => rfl) _

/-- Rules narrow related candidates to related ones. -/
theorem rankBy {rs : List RankRule}
    (targets : ∀ t, RankRule.closestTo t ∈ rs →
      Corresponds E R (t.resolveAll c) (t.resolveAll c'))
    (h : R cs cs') : Corresponds E R (rankBy c rs cs) (rankBy c' rs cs') := by
  induction rs generalizing cs cs' with
  | nil =>
    rw [PartPlan.rankBy, PartPlan.rankBy]
    exact .ok h
  | cons r rs ih =>
    have same := kept.length h
    by_cases few : cs.length ≤ 1
    · rw [rankBy_of_le _ few, rankBy_of_le _ (same ▸ few)]
      exact .ok h
    · rw [rankBy_cons few, rankBy_cons (same ▸ few)]
      have here : Corresponds E Eq (r.prepare c) (r.prepare c') :=
        kept.prepare fun t e => targets t (e ▸ List.mem_cons_self)
      refine here.bind fun scorer scorer' same => ?_
      rw [same]
      refine (kept.best scorer' h).bind fun narrowed narrowed' related => ?_
      exact ih (fun t ht => targets t (List.mem_cons_of_mem _ ht)) related

end KeptByRanking

/-- In contexts that give related answers a selector stands for related
selections. -/
theorem AskedAlike.resolveAll (kept : KeptByRanking E R) {s : Selector}
    (h : AskedAlike E R c c' s) : Corresponds E R (s.resolveAll c) (s.resolveAll c') := by
  induction s using Selector.induction with
  | named name =>
    rw [Selector.resolveAll, Selector.resolveAll, h.named name (.here _)]
    cases c'.named.find? name with
    | some x => exact .ok (kept.single x)
    | none => exact .error (kept.refl _)
  | query kind ps rs ih =>
    rw [Selector.resolveAll, Selector.resolveAll]
    refine (h.candidates kind ps rs (.here _)).bind fun candidates candidates' related => ?_
    rw [kept.isEmpty_eq related]
    cases candidates'.isEmpty with
    | true => exact .error (kept.refl _)
    | false =>
      have ranked := kept.rankBy (fun t rule => ih t rule (h.target rule)) related
      refine ranked.bind fun found found' related => ?_
      rw [kept.isEmpty_eq related]
      cases found'.isEmpty with
      | true => exact .error (kept.refl _)
      | false => exact .ok related

/-- And if it stands for one selection in one of them, it does for the same in the
other. -/
theorem AskedAlike.resolve (kept : KeptByRanking E R) {s : Selector}
    (h : AskedAlike E R c c' s) : Corresponds E Eq (s.resolve c) (s.resolve c') :=
  (h.resolveAll kept).bind fun _ _ related => kept.exactlyOne s related

end PartPlan
