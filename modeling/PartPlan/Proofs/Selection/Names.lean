/-
Names that are registered. A selector looks up the outputs it names, and those
that the targets of its rules name in turn; if all of them are registered, it
may still stand for nothing, but not for want of a name.
-/
import PartPlan.Proofs.Checked
import PartPlan.Proofs.Selector.Nesting
import PartPlan.Selection.Resolve

namespace PartPlan

variable {c : ResolutionContext}

/-- Whatever a computation fails with is no missing name. -/
abbrev FindsNames {α : Type} (x : Except SelectorError α) : Prop :=
  Checked.Fails (fun e => e.code ≠ "selector_named_missing") x

/-- Metadata that is missing is no missing name. -/
theorem FindsNames.ofMeta {α : Type} (x : Except MetaMissing α) :
    FindsNames (x.mapError SelectorError.metaMissing) := by
  refine Checked.Fails.mapError fun e _ => ?_
  simp [SelectorError.code]

/-- Every output that a selector names, at any depth, is registered. -/
def Selector.NamesIn (c : ResolutionContext) (s : Selector) : Prop :=
  ∀ name, (Selector.named name).Within s → c.named.contains name = true

theorem Selector.NamesIn.target {kind : SelectionKind} {ps : List Predicate} {rs : List RankRule}
    {t : Selector} (h : (Selector.query kind ps rs).NamesIn c)
    (rule : RankRule.closestTo t ∈ rs) : t.NamesIn c :=
  fun name within => h name (.target rule within)

theorem findsNames_exactlyOne (s : Selector) (found : List Selection) :
    FindsNames (exactlyOne s found) := by
  unfold exactlyOne
  split
  · exact Checked.Fails.error (by simp [SelectorError.code])
  · exact Checked.Fails.ok _
  · exact Checked.Fails.error (by simp [SelectorError.code])

theorem findsNames_prepare {r : RankRule}
    (targets : ∀ t, r = .closestTo t → FindsNames (t.resolveAll c)) :
    FindsNames (r.prepare c) := by
  cases r with
  | maxArea => exact Checked.Fails.ok _
  | minZ => exact Checked.Fails.ok _
  | maxZ => exact Checked.Fails.ok _
  | closestTo t =>
    rw [RankRule.prepare]
    refine (targets t rfl).bind fun found => ?_
    refine (findsNames_exactlyOne t found).bind fun reference => ?_
    exact (FindsNames.ofMeta _).bind fun center => Checked.Fails.ok _

theorem findsNames_rankBy {rs : List RankRule}
    (targets : ∀ t, RankRule.closestTo t ∈ rs → FindsNames (t.resolveAll c))
    (cs : List Selection) : FindsNames (rankBy c rs cs) := by
  induction rs generalizing cs with
  | nil =>
    rw [rankBy]
    exact Checked.Fails.ok cs
  | cons r rs ih =>
    rw [rankBy]
    split
    · exact Checked.Fails.ok cs
    · have here := findsNames_prepare (c := c) (r := r) fun t e =>
        targets t (e ▸ List.mem_cons_self)
      refine here.bind fun scorer => (FindsNames.ofMeta _).bind fun kept => ?_
      exact ih (fun t ht => targets t (List.mem_cons_of_mem _ ht)) kept

namespace Selector

/-- A selector whose names are registered does not fail for want of one. -/
theorem findsNames_resolveAll {s : Selector} (h : s.NamesIn c) : FindsNames (s.resolveAll c) := by
  induction s using Selector.induction with
  | named name =>
    obtain ⟨found, registered⟩ := Option.isSome_iff_exists.1 (h name (.here _))
    rw [resolveAll, registered]
    exact Checked.Fails.ok _
  | query kind ps rs ih =>
    rw [resolveAll]
    refine (FindsNames.ofMeta _).bind fun candidates => ?_
    cases candidates.isEmpty with
    | true =>
      exact Checked.Fails.error (by simp [SelectorError.code])
    | false =>
      have ranked := findsNames_rankBy (c := c) (fun t rule => ih t rule (h.target rule)) candidates
      refine ranked.bind fun found => ?_
      cases found.isEmpty with
      | true =>
        exact Checked.Fails.error (by simp [SelectorError.code])
      | false => exact Checked.Fails.ok found

/-- A name stands for the one selection that is registered under it. -/
theorem resolve_named {name : String} {s : Selection} (registered : c.named.find? name = some s) :
    (named name).resolveAll c = .ok [s] ∧ (named name).resolve c = .ok s := by
  have all : (named name).resolveAll c = .ok [s] := by rw [resolveAll, registered]
  refine ⟨all, ?_⟩
  unfold resolve
  rw [all]
  rfl

end Selector

theorem SelectorSlot.findsNames_resolve {slot : SelectorSlot} (h : slot.selector.NamesIn c) :
    FindsNames (slot.resolve c) := by
  have all := Selector.findsNames_resolveAll h
  obtain ⟨name, cardinality, selector⟩ := slot
  cases cardinality with
  | one =>
    refine Checked.Fails.bind ?_ fun s => Checked.Fails.ok [s]
    exact all.bind fun found => findsNames_exactlyOne selector found
  | many => exact all

/-- A feature whose selectors name registered outputs only does not fail for
want of one. -/
theorem Feature.findsNames_resolveSelectors {f : Feature}
    (h : ∀ slot ∈ f.selectorSlots, slot.selector.NamesIn c) :
    FindsNames (f.resolveSelectors c) := by
  unfold resolveSelectors
  refine Checked.Fails.bind (Checked.Fails.mapM fun slot hs => ?_) fun found => Checked.Fails.ok _
  -- an error in a slot has the code of its cause
  have resolved : FindsNames ((slot.resolve c).mapError (.inSlot f.id slot.name)) :=
    Checked.Fails.mapError (SelectorSlot.findsNames_resolve (h slot hs))
  exact resolved.bind fun selections => Checked.Fails.ok _

end PartPlan
