/-
The normal form of a selector stands for the same selections. What is left out
of it are repetitions, which are harmless, and the targets of rules are in
normal form as well; so the claim for a query rests on the same claim for the
targets of its rules, and is proved by induction on the nesting of selectors.

Errors quote the selector, as the number of its predicates and rules, which
is not the same in the normal form. `SelectorError.undescribed` leaves the
quotation out, and is all that errors have to be compared up to.
-/
import PartPlan.Proofs.Feature.Normal
import PartPlan.Proofs.Selection.Repetition
import PartPlan.Proofs.Selector.Nesting

namespace PartPlan

/-- An error without the description of the selector. -/
def SelectorError.undescribed : SelectorError → SelectorError
  | namedMissing name => .namedMissing name
  | empty _ kind => .empty "" kind
  | emptyAfterRank _ => .emptyAfterRank ""
  | ambiguous _ candidates => .ambiguous "" candidates
  | metaMissing cause => .metaMissing cause
  | inSlot feature slot cause => .inSlot feature slot cause.undescribed

/-- The same result, or the same error up to the description of the
selector. -/
def Agree {α : Type} (x y : Except SelectorError α) : Prop :=
  x.mapError SelectorError.undescribed = y.mapError SelectorError.undescribed

namespace Agree

variable {α β : Type} {x y : Except SelectorError α}

theorem refl (x : Except SelectorError α) : Agree x x := rfl

theorem bind {f g : α → Except SelectorError β} (h : Agree x y) (h' : ∀ a, Agree (f a) (g a)) :
    Agree (x >>= f) (y >>= g) := by
  show (x >>= f).mapError _ = (y >>= g).mapError _
  rw [Checked.mapError_bind, Checked.mapError_bind, h, funext h']

theorem mapM {ι : Type} {f g : ι → Except SelectorError α} (h : ∀ i, Agree (f i) (g i))
    (l : List ι) : Agree (l.mapM f) (l.mapM g) := by
  show (l.mapM f).mapError _ = (l.mapM g).mapError _
  rw [Checked.mapError_mapM, Checked.mapError_mapM, funext h]

theorem inSlot (h : Agree x y) (feature slot : String) :
    Agree (x.mapError (.inSlot feature slot)) (y.mapError (.inSlot feature slot)) := by
  have through : ∀ z : Except SelectorError α,
      (z.mapError (.inSlot feature slot)).mapError SelectorError.undescribed
        = (z.mapError SelectorError.undescribed).mapError (.inSlot feature slot) := by
    intro z
    rw [Checked.mapError_mapError, Checked.mapError_mapError]
    rfl
  show (x.mapError _).mapError _ = (y.mapError _).mapError _
  rw [through, through, h]

end Agree

variable {c : ResolutionContext}

/-- Which selector it is matters only for the description in errors. -/
theorem exactlyOne_agree (s t : Selector) (found : List Selection) :
    Agree (exactlyOne s found) (exactlyOne t found) := by
  unfold exactlyOne
  split
  · rfl
  · rfl
  · rfl

-- ================================================================= rules

theorem prepare_normal {r : RankRule}
    (targets : ∀ t, r = .closestTo t → Agree (t.normal.resolveAll c) (t.resolveAll c)) :
    Agree (r.normal.prepare c) (r.prepare c) := by
  cases r with
  | maxArea => rfl
  | minZ => rfl
  | maxZ => rfl
  | closestTo t =>
    rw [RankRule.normal, RankRule.prepare, RankRule.prepare]
    refine (targets t rfl).bind fun found => ?_
    exact (exactlyOne_agree _ _ found).bind fun _ => Agree.refl _

/-- Rules may be used with their targets in normal form. -/
theorem rankBy_normalRules {rs : List RankRule}
    (targets : ∀ t, RankRule.closestTo t ∈ rs → Agree (t.normal.resolveAll c) (t.resolveAll c))
    (cs : List Selection) : Agree (rankBy c (normalRules rs) cs) (rankBy c rs cs) := by
  induction rs generalizing cs with
  | nil => exact Agree.refl _
  | cons r rs ih =>
    rw [normalRules]
    by_cases few : cs.length ≤ 1
    · rw [rankBy_of_le _ few, rankBy_of_le _ few]
      exact Agree.refl _
    · rw [rankBy_cons few, rankBy_cons few]
      have here := prepare_normal (c := c) (r := r) fun t e => targets t (e ▸ List.mem_cons_self)
      refine here.bind fun sc => (Agree.refl _).bind fun kept => ?_
      exact ih (fun t ht => targets t (List.mem_cons_of_mem _ ht)) kept

-- ============================================================= selectors

namespace Selector

/-- The normal form of a selector stands for the same selections. -/
theorem resolveAll_normal_agree (c : ResolutionContext) (s : Selector) :
    Agree (s.normal.resolveAll c) (s.resolveAll c) := by
  induction s using Selector.induction with
  | named name => exact Agree.refl _
  | query kind ps rs ih =>
    rw [Selector.normal, resolveAll, resolveAll, satisfying_firstOccurrences]
    refine (Agree.refl _).bind fun candidates => ?_
    cases candidates.isEmpty with
    | true => rfl
    | false =>
      have ranked := rankBy_normalRules (c := c) ih candidates
      rw [← rankBy_firstOccurrences (normalRules rs)] at ranked
      refine ranked.bind fun found => ?_
      cases found.isEmpty with
      | true => rfl
      | false => rfl

/-- The normal form of a selector stands for the same single selection. -/
theorem resolve_normal_agree (c : ResolutionContext) (s : Selector) :
    Agree (s.normal.resolve c) (s.resolve c) := by
  unfold resolve
  exact (resolveAll_normal_agree c s).bind fun found => exactlyOne_agree _ _ found

end Selector

-- ============================================================== features

theorem SelectorSlot.resolve_normal_agree (c : ResolutionContext) (s : SelectorSlot) :
    Agree (s.normal.resolve c) (s.resolve c) := by
  obtain ⟨name, cardinality, selector⟩ := s
  cases cardinality with
  | one => exact (selector.resolve_normal_agree c).bind fun _ => Agree.refl _
  | many => exact selector.resolveAll_normal_agree c

/-- Features whose selectors are the same up to normal form stand for the
same selections. -/
theorem Feature.resolveSelectors_agree {f g : Feature} (id : g.id = f.id)
    (slots : g.selectorSlots = f.selectorSlots.map SelectorSlot.normal) :
    Agree (g.resolveSelectors c) (f.resolveSelectors c) := by
  unfold Feature.resolveSelectors
  rw [slots, id, List.mapM_map]
  refine Agree.bind (Agree.mapM (fun s => ?_) _) fun _ => Agree.refl _
  exact ((s.resolve_normal_agree c).inSlot f.id s.name).bind fun _ => Agree.refl _

/-- In every context the normal form of a selector stands for the same
selections, be they asked for as a set or as a single one, or fails with the
same error. So does a feature with its selectors in normal form, whether it
is normal otherwise or not. -/
theorem normal_form_agrees (c : ResolutionContext) :
    (∀ s : Selector, Agree (s.normal.resolveAll c) (s.resolveAll c)
        ∧ Agree (s.normal.resolve c) (s.resolve c))
      ∧ (∀ f : Feature, Agree (f.normalSelectors.resolveSelectors c) (f.resolveSelectors c))
      ∧ ∀ (f g : Feature) (table : ParamTable), f.normal table = .ok g →
        Agree (g.resolveSelectors c) (f.resolveSelectors c) := by
  refine ⟨fun s => ⟨s.resolveAll_normal_agree c, s.resolve_normal_agree c⟩, fun f => ?_, ?_⟩
  · exact Feature.resolveSelectors_agree rfl f.selectorSlots_normalSelectors
  · intro f g table h
    exact Feature.resolveSelectors_agree (Feature.id_normal h) (Feature.selectorSlots_normal h)

/-- A face that is asked for with repetitions, one of them in the target of a rule. -/
def wordyFace : Selector :=
  .query .face [.planar, .createdBy "base", .planar]
    [.maxZ, .closestTo (.query .edge [] [.minZ, .minZ]), .maxZ]

/-- A frame on the face. -/
def wordyFrame : Feature := ⟨"frame", [], [], .datumFrame, (wordyFace, ())⟩

/-- A flat face or an edge of a base, with its centre at a height. -/
def ofBase (kind : SelectionKind) (height : Float) (id : String) : Selection :=
  ⟨id, kind, .ofList [(MetaKey.createdBy.name, .text "base"), (MetaKey.planar.name, .bool true),
    (MetaKey.centerZ.name, .number height), (MetaKey.center.name, .vec3 ⟨0, 0, height⟩)]⟩

/-- A base with two faces at the top and one below them, and with some edges at the
bottom and one above them. -/
def steppedBase (feet : List String) : ResolutionContext :=
  .ofSelections ([ofBase .face 5 "left", ofBase .face 3 "step", ofBase .face 5 "right",
    ofBase .edge 4 "rim"] ++ feet.map (ofBase .edge 0))

/-- On one foot the two faces at the top are level up to the repeated rule and after it.
On two feet it is the target of the rule before that has two edges left when its rule is
repeated. -/
theorem wordyFrame_agrees :
    (wordyFace.resolveAll (steppedBase ["foot"])).toOption
        = some [ofBase .face 5 "left", ofBase .face 5 "right"]
      ∧ Agree (wordyFace.normal.resolveAll (steppedBase ["foot"]))
        (wordyFace.resolveAll (steppedBase ["foot"]))
      ∧ ((Selector.query .edge [] [.minZ, .minZ]).resolveAll
          (steppedBase ["foot", "heel"])).toOption
        = some [ofBase .edge 0 "foot", ofBase .edge 0 "heel"]
      ∧ ∃ g, wordyFrame.normal (.empty .mm) = .ok g
        ∧ g.selectorSlots = [⟨"on", .one, .query .face [.planar, .createdBy "base"]
          [.maxZ, .closestTo (.query .edge [] [.minZ])]⟩]
        ∧ ∀ feet, Agree (g.resolveSelectors (steppedBase feet))
          (wordyFrame.resolveSelectors (steppedBase feet)) :=
  ⟨by decide +kernel, ((normal_form_agrees (steppedBase ["foot"])).1 wordyFace).1,
    by decide +kernel, _, rfl, rfl,
    fun feet => (normal_form_agrees (steppedBase feet)).2.2 wordyFrame _ (.empty .mm) rfl⟩

end PartPlan
