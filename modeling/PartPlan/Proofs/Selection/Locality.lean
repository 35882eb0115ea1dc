/-
Resolution is not disturbed by geometry that has nothing to do with a selector. If
every query in it, at any depth, asks first who created a selection, then what
other features have created fails that predicate before anything else is asked of
it. It is no candidate and is not ranked, and metadata that it lacks is not missed.

So only those selections count that were created by one of the features the
queries ask for (`Selector.leaders`), besides those of which it is not known who
created them, for about these the first predicate is an error.
-/
import PartPlan.Proofs.Selection.Contexts

namespace PartPlan

open Checked (Corresponds)

-- ================================================================ creators

/-- The feature that created a selection, if it is known. -/
def Selection.creator? (x : Selection) : Option String :=
  (x.metadata.find? MetaKey.createdBy.name).bind MetaValue.text?

/-- Whether a selection was created by one of the given features. -/
def Selection.createdIn (features : List String) (x : Selection) : Bool :=
  x.creator?.any features.contains

/-- Whether a selection was created by one of the given features, or it is not known
by which. -/
def Selection.concerns (features : List String) (x : Selection) : Bool :=
  x.creator?.all features.contains

/-- It is known of every selection which feature created it. -/
def ResolutionContext.CreatorsKnown (c : ResolutionContext) : Prop :=
  ∀ x ∈ c.selections, x.creator?.isSome

theorem Selection.concerns_eq_createdIn {x : Selection} (known : x.creator?.isSome)
    (features : List String) : x.concerns features = x.createdIn features := by
  obtain ⟨id, created⟩ := Option.isSome_iff_exists.1 known
  unfold concerns createdIn
  rw [created]
  rfl

mutual
/-- The features that queries ask for with their first predicate, a query before the
targets of its rules. -/
def Selector.leaders : Selector → List String
  | .named _ => []
  | .query _ ps rs => (ps.head?.bind Predicate.creator?).toList ++ rulesLeaders rs

/-- Those in the target of a rule. -/
def RankRule.leaders : RankRule → List String
  | .closestTo target => target.leaders
  | .maxArea => []
  | .minZ => []
  | .maxZ => []

/-- Those in the targets of rules. -/
def rulesLeaders : List RankRule → List String
  | [] => []
  | r :: rs => r.leaders ++ rulesLeaders rs
end

theorem mem_rulesLeaders {id : String} {rs : List RankRule} :
    id ∈ rulesLeaders rs ↔ ∃ t, .closestTo t ∈ rs ∧ id ∈ t.leaders := by
  induction rs with
  | nil => simp [rulesLeaders]
  | cons r rs ih =>
    rw [rulesLeaders, List.mem_append, ih]
    cases r <;> simp [RankRule.leaders]

namespace Selector

variable {s : Selector}

/-- A query asks for a feature with its first predicate if that is a `createdBy`. -/
theorem mem_ownLeader {id : String} {ps : List Predicate} :
    id ∈ (ps.head?.bind Predicate.creator?).toList ↔ ∃ rest, ps = .createdBy id :: rest := by
  cases ps with
  | nil => simp
  | cons p rest => cases p <;> simp [Predicate.creator?, eq_comm]

/-- The leaders of a selector are those of the queries in it, at any depth. -/
theorem mem_leaders {id : String} :
    id ∈ s.leaders ↔ ∃ kind ps rs, (query kind (.createdBy id :: ps) rs).Within s := by
  induction s using Selector.induction with
  | named name =>
    rw [leaders]
    refine ⟨fun h => absurd h List.not_mem_nil, fun h => ?_⟩
    obtain ⟨kind, ps, rs, within⟩ := h
    cases within
  | query kind ps rs ih =>
    rw [leaders, List.mem_append, mem_rulesLeaders, mem_ownLeader]
    constructor
    · intro h
      rcases h with ⟨rest, rfl⟩ | ⟨t, rule, h⟩
      · exact ⟨kind, rest, rs, .here _⟩
      · obtain ⟨kind', ps', rs', within⟩ := (ih t rule).1 h
        exact ⟨kind', ps', rs', .target rule within⟩
    · intro h
      obtain ⟨kind', ps', rs', within⟩ := h
      cases within with
      | here => exact Or.inl ⟨ps', rfl⟩
      | target rule within => exact Or.inr ⟨_, rule, (ih _ rule).2 ⟨kind', ps', rs', within⟩⟩

/-- Every query in a selector, at any depth, asks first who created a selection. -/
def IsLed (s : Selector) : Prop :=
  ∀ kind ps rs, (query kind ps rs).Within s → ∃ id rest, ps = .createdBy id :: rest

end Selector

-- ============================================================== candidates

variable {features : List String} {ps : List Predicate}

/-- What another feature created fails the first predicate, and nothing more is asked
of it. -/
theorem allHold_of_not_concerns {id : String} (asked : id ∈ features) {x : Selection}
    (other : x.concerns features = false) : allHold x (.createdBy id :: ps) = .ok false := by
  unfold Selection.concerns at other
  cases created : x.creator? with
  | none =>
    rw [created] at other
    cases other
  | some creator =>
    rw [created] at other
    have differs : (creator == id) = false := by
      rw [beq_eq_false_iff_ne]
      rintro rfl
      simp [asked] at other
    have text : x.requireText MetaKey.createdBy.name = .ok creator := by
      unfold Selection.creator? at created
      unfold Selection.requireText Selection.require
      rw [created]
    rw [allHold, Predicate.holds, text]
    show (if (creator == id) = true then allHold x ps else pure false) = .ok false
    rw [differs]
    rfl

/-- Selections that fail a predicate may as well not be there. -/
theorem satisfying_filter {keep : Selection → Bool} {cs : List Selection}
    (fails : ∀ x ∈ cs, keep x = false → allHold x ps = .ok false) :
    satisfying ps (cs.filter keep) = satisfying ps cs := by
  induction cs with
  | nil => rfl
  | cons x cs ih =>
    obtain ⟨here, later⟩ := List.forall_mem_cons.1 fails
    cases kept : keep x with
    | true => rw [List.filter_cons_of_pos kept, satisfying, satisfying, ih later]
    | false =>
      rw [List.filter_cons_of_neg (by simp [kept]), satisfying, here kept, ih later]
      cases satisfying ps cs with
      | error e => rfl
      | ok others => rfl

/-- A query finds its candidates among the selections that concern it. -/
theorem satisfying_concerns {id : String} (asked : id ∈ features) (kind : SelectionKind)
    (all : List Selection) :
    satisfying (.createdBy id :: ps) ((all.filter (·.concerns features)).filter (·.kind == kind))
      = satisfying (.createdBy id :: ps) (all.filter (·.kind == kind)) := by
  rw [List.filter_comm]
  exact satisfying_filter fun x _ other => allHold_of_not_concerns asked other

-- ============================================================== resolution

theorem keptByRanking_eq : KeptByRanking Eq Eq where
  refl _ := rfl
  single _ := rfl
  unique same := List.singleton_inj.1 same
  length same := same ▸ rfl
  ambiguous _ same := same ▸ rfl
  best _ same := same ▸ Corresponds.refl (fun _ => rfl) (fun _ => rfl) _

namespace Selector

variable {s : Selector} {c c' : ResolutionContext}

/-- Two contexts with the same selections that concern a selector, and the same
outputs under the names in it, are the same to it. -/
theorem resolve_eq_of_concerns (led : s.IsLed)
    (names : ∀ name, (named name).Within s → c.named.find? name = c'.named.find? name)
    (same : c.selections.filter (·.concerns s.leaders)
      = c'.selections.filter (·.concerns s.leaders)) :
    s.resolveAll c = s.resolveAll c' ∧ s.resolve c = s.resolve c' := by
  have asked : AskedAlike Eq Eq c c' s := by
    refine ⟨names, fun kind ps rs within => ?_⟩
    obtain ⟨id, rest, rfl⟩ := led kind ps rs within
    have leader : id ∈ s.leaders := mem_leaders.2 ⟨kind, rest, rs, within⟩
    rw [← satisfying_concerns leader, same, satisfying_concerns leader]
    exact Corresponds.refl (fun _ => rfl) (fun _ => rfl) _
  exact ⟨(asked.resolveAll keptByRanking_eq).eq, (asked.resolve keptByRanking_eq).eq⟩

/-- A selector in which every query asks first who created a selection stands for the
same, or for nothing and for the same reason, in two contexts that agree on what the
features it asks for have created and on the outputs it names. What other features
have created can be inserted anywhere. -/
theorem led_ignores_others (led : s.IsLed) :
    (∀ c c' : ResolutionContext,
      (∀ name, (named name).Within s → c.named.find? name = c'.named.find? name) →
      c.CreatorsKnown → c'.CreatorsKnown →
      c.selections.filter (·.createdIn s.leaders)
        = c'.selections.filter (·.createdIn s.leaders) →
      s.resolveAll c = s.resolveAll c' ∧ s.resolve c = s.resolve c')
    ∧ ∀ (outputs : SortedMap Selection) (pieces : List (List Selection × List Selection)),
      (∀ piece ∈ pieces, ∀ x ∈ piece.2, ∃ id, x.creator? = some id ∧ id ∉ s.leaders) →
      s.resolveAll ⟨pieces.flatMap fun piece => piece.1 ++ piece.2, outputs⟩
          = s.resolveAll ⟨pieces.flatMap (·.1), outputs⟩
        ∧ s.resolve ⟨pieces.flatMap fun piece => piece.1 ++ piece.2, outputs⟩
          = s.resolve ⟨pieces.flatMap (·.1), outputs⟩ := by
  refine ⟨fun c c' names known known' same => ?_, fun outputs pieces others => ?_⟩
  · refine resolve_eq_of_concerns led names ?_
    have narrow : ∀ d : ResolutionContext, d.CreatorsKnown →
        d.selections.filter (·.concerns s.leaders)
          = d.selections.filter (·.createdIn s.leaders) :=
      fun d known => List.filter_congr fun x hx => Selection.concerns_eq_createdIn (known x hx) _
    rw [narrow c known, narrow c' known', same]
  · refine resolve_eq_of_concerns led (fun _ _ => rfl) ?_
    show (pieces.flatMap _).filter _ = (pieces.flatMap _).filter _
    rw [List.filter_flatMap, List.filter_flatMap]
    refine List.flatMap_congr fun piece member => ?_
    have nothing : piece.2.filter (·.concerns s.leaders) = [] := by
      refine List.filter_eq_nil_iff.2 fun x hx => ?_
      obtain ⟨id, created, outside⟩ := others piece member x hx
      simp [Selection.concerns, created, outside]
    rw [List.filter_append, nothing, List.append_nil]

end Selector

/-- The face of a lid that is nearest to the rim. -/
def rimmedLid : Selector :=
  .query .face [.createdBy "lid", .planar] [.closestTo (.query .edge [.createdBy "rim"] [])]

/-- A flat face or edge at a height. -/
def levelAt (kind : SelectionKind) (creator : String) (height : Float) : Selection :=
  ⟨creator ++ kind.name, kind, .ofList [(MetaKey.createdBy.name, .text creator),
    (MetaKey.planar.name, .bool true), (MetaKey.center.name, .vec3 ⟨0, 0, height⟩)]⟩

/-- A face of the base of which nothing is known but that, and an edge of it. -/
def bareBase : List Selection :=
  [(Selection.bare "base" .face).withMeta MetaKey.createdBy.name (.text "base"),
    levelAt .edge "base" 8]

/-- A lid and its rim, and the base after each of their selections. -/
def lidOnBase : List (List Selection × List Selection) :=
  [([levelAt .face "lid" 9], bareBase), ([levelAt .edge "rim" 1], bareBase),
    ([levelAt .face "lid" 2], bareBase)]

/-- The lid and its rim alone. -/
def lidAlone : ResolutionContext := ⟨lidOnBase.flatMap (·.1), .empty⟩

/-- The lid and its rim among selections of the base. -/
def lidAndBase : ResolutionContext := ⟨lidOnBase.flatMap fun piece => piece.1 ++ piece.2, .empty⟩

/-- The two contexts agree on what the lid and the rim have created, and one is the
other with selections of the base inserted. -/
theorem rimmedLid_ignores_base :
    (rimmedLid.resolve lidAlone).toOption = some (levelAt .face "lid" 2)
      ∧ (lidAndBase.CreatorsKnown ∧ lidAlone.CreatorsKnown
        ∧ lidAndBase.selections.filter (·.createdIn rimmedLid.leaders)
          = lidAlone.selections.filter (·.createdIn rimmedLid.leaders)
        ∧ rimmedLid.resolveAll lidAndBase = rimmedLid.resolveAll lidAlone
        ∧ rimmedLid.resolve lidAndBase = rimmedLid.resolve lidAlone)
      ∧ (∀ piece ∈ lidOnBase, ∀ x ∈ piece.2,
          ∃ id, x.creator? = some id ∧ id ∉ rimmedLid.leaders)
        ∧ rimmedLid.resolveAll lidAndBase = rimmedLid.resolveAll lidAlone
        ∧ rimmedLid.resolve lidAndBase = rimmedLid.resolve lidAlone := by
  have led : rimmedLid.IsLed := by
    intro kind ps rs within
    cases within with
    | here => exact ⟨"lid", [.planar], rfl⟩
    | target rule within =>
      obtain rfl := RankRule.closestTo.inj (List.mem_singleton.1 rule)
      cases within with
      | here => exact ⟨"rim", [], rfl⟩
      | target rule within => exact absurd rule List.not_mem_nil
  have others : ∀ piece ∈ lidOnBase, ∀ x ∈ piece.2,
      ∃ id, x.creator? = some id ∧ id ∉ rimmedLid.leaders := by
    have base : ∀ x ∈ bareBase, x.creator? = some "base" := by decide +kernel
    have blocks : ∀ piece ∈ lidOnBase, piece.2 = bareBase := by decide +kernel
    intro piece member x inside
    exact ⟨"base", base x (blocks piece member ▸ inside), by decide +kernel⟩
  have known : lidAndBase.CreatorsKnown := by
    unfold ResolutionContext.CreatorsKnown
    decide +kernel
  have known' : lidAlone.CreatorsKnown := by
    unfold ResolutionContext.CreatorsKnown
    decide +kernel
  have same : lidAndBase.selections.filter (·.createdIn rimmedLid.leaders)
      = lidAlone.selections.filter (·.createdIn rimmedLid.leaders) := by decide +kernel
  obtain ⟨agreeing, inserted⟩ := Selector.led_ignores_others led
  exact ⟨by decide +kernel,
    ⟨known, known', same, agreeing lidAndBase lidAlone (fun _ _ => rfl) known known' same⟩,
    others, inserted .empty lidOnBase others⟩

end PartPlan
