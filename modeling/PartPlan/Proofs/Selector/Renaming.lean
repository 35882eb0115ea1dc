/-
Selectors in which features have other names. A selector names features in its
`createdBy` predicates, at any depth, and nowhere else; `Selector.rename` puts
other names there.

Bringing to normal form compares predicates and rules, so it can tell names
apart, but only whether they are the same. If no two of the names in a selector
become one, it does not matter whether it is renamed before or after
(`Selector.normal_rename`). That different rules stay different is seen by naming
them back.
-/
import Mathlib.Data.Set.Function
import PartPlan.Proofs.Selector.Normal

namespace PartPlan

variable {ρ σ : String → String}

/-- A predicate with another name for the creator. -/
def Predicate.rename (ρ : String → String) : Predicate → Predicate
  | createdBy feature => createdBy (ρ feature)
  | planar => planar
  | normal d => normal d
  | role value => role value

mutual
/-- A rank rule with the names in its target replaced. -/
def RankRule.rename (ρ : String → String) : RankRule → RankRule
  | .closestTo target => .closestTo (target.rename ρ)
  | .maxArea => .maxArea
  | .minZ => .minZ
  | .maxZ => .maxZ

/-- A selector with other names for the features in it. -/
def Selector.rename (ρ : String → String) : Selector → Selector
  | .named name => .named name
  | .query kind ps rs => .query kind (ps.map (Predicate.rename ρ)) (renameRules ρ rs)

/-- Rank rules with the names in their targets replaced. -/
def renameRules (ρ : String → String) : List RankRule → List RankRule
  | [] => []
  | r :: rs => r.rename ρ :: renameRules ρ rs
end

/-- A selector names a feature, at any depth. -/
inductive Selector.Names : Selector → String → Prop
  | creator {kind : SelectionKind} {ps : List Predicate} {rs : List RankRule} {id : String}
      (named : .createdBy id ∈ ps) : Names (.query kind ps rs) id
  | target {kind : SelectionKind} {ps : List Predicate} {rs : List RankRule} {t : Selector}
      {id : String} (rule : .closestTo t ∈ rs) (names : Names t id) : Names (.query kind ps rs) id

theorem renameRules_eq_map (rs : List RankRule) : renameRules ρ rs = rs.map (RankRule.rename ρ) := by
  induction rs with
  | nil => rw [renameRules, List.map_nil]
  | cons r rs ih => rw [renameRules, ih, List.map_cons]

theorem Predicate.rename_eq_createdBy {p : Predicate} {id : String} :
    p.rename ρ = .createdBy id ↔ ∃ feature, p = .createdBy feature ∧ id = ρ feature := by
  cases p <;> simp [rename, eq_comm]

theorem Predicate.mem_map_rename {ps : List Predicate} {id : String} :
    .createdBy id ∈ ps.map (Predicate.rename ρ) ↔ ∃ feature, .createdBy feature ∈ ps ∧ id = ρ feature := by
  rw [List.mem_map]
  constructor
  · intro h
    obtain ⟨p, hp, same⟩ := h
    obtain ⟨feature, rfl, rfl⟩ := rename_eq_createdBy.1 same
    exact ⟨feature, hp, rfl⟩
  · intro h
    obtain ⟨feature, hp, rfl⟩ := h
    exact ⟨_, hp, rfl⟩

theorem RankRule.rename_eq_closestTo {r : RankRule} {t : Selector} :
    r.rename ρ = .closestTo t ↔ ∃ s, r = .closestTo s ∧ s.rename ρ = t := by
  cases r <;> simp [RankRule.rename]

theorem RankRule.mem_map_rename {rs : List RankRule} {t : Selector} :
    .closestTo t ∈ rs.map (RankRule.rename ρ) ↔ ∃ s, .closestTo s ∈ rs ∧ t = s.rename ρ := by
  rw [List.mem_map]
  constructor
  · intro h
    obtain ⟨r, hr, same⟩ := h
    obtain ⟨s, rfl, rfl⟩ := rename_eq_closestTo.1 same
    exact ⟨s, hr, rfl⟩
  · intro h
    obtain ⟨s, hr, rfl⟩ := h
    exact ⟨_, hr, by rw [RankRule.rename]⟩

namespace Selector

theorem rename_query (kind : SelectionKind) (ps : List Predicate) (rs : List RankRule) :
    (query kind ps rs).rename ρ
      = .query kind (ps.map (Predicate.rename ρ)) (rs.map (RankRule.rename ρ)) := by
  rw [Selector.rename, renameRules_eq_map]

theorem rename_named (name : String) : (named name).rename ρ = .named name := by
  rw [Selector.rename]

theorem names_query {kind : SelectionKind} {ps : List Predicate} {rs : List RankRule}
    {id : String} : (query kind ps rs).Names id
      ↔ .createdBy id ∈ ps ∨ ∃ t, .closestTo t ∈ rs ∧ t.Names id := by
  constructor
  · intro h
    cases h with
    | creator named => exact Or.inl named
    | target rule names => exact Or.inr ⟨_, rule, names⟩
  · intro h
    rcases h with named | ⟨t, rule, names⟩
    · exact .creator named
    · exact .target rule names

/-- A selector names what the queries in it name. -/
theorem names_of_within {s : Selector} {kind : SelectionKind} {ps : List Predicate}
    {rs : List RankRule} {id : String} (within : (query kind ps rs).Within s)
    (named : .createdBy id ∈ ps) : s.Names id := by
  generalize same : query kind ps rs = t at within
  induction within with
  | here =>
    subst same
    exact .creator named
  | target rule _ ih => exact .target rule ih

/-- The normal form of a selector names nothing else. -/
theorem names_of_normal {s : Selector} {id : String} (h : s.normal.Names id) : s.Names id := by
  induction s using Selector.induction with
  | named name =>
    rw [Selector.normal] at h
    exact h
  | query kind ps rs ih =>
    rw [Selector.normal, normalRules_eq_map, names_query] at h
    rcases h with named | ⟨t, rule, names⟩
    · exact .creator ((firstOccurrences_sublist ps).subset named)
    · obtain ⟨r, hr, same⟩ := List.mem_map.1 ((firstOccurrences_sublist _).subset rule)
      obtain ⟨s, rfl, rfl⟩ := RankRule.normal_eq_closestTo.1 same
      exact .target hr (ih s hr names)

/-- What occurs in a renamed selector is what occurs in it, renamed. -/
theorem within_rename {s t : Selector} :
    t.Within (s.rename ρ) ↔ ∃ u : Selector, u.Within s ∧ t = u.rename ρ := by
  constructor
  · intro h
    induction s using Selector.induction with
    | named name =>
      rw [rename_named] at h
      cases h
      exact ⟨_, .here _, (rename_named name).symm⟩
    | query kind ps rs ih =>
      rw [rename_query] at h
      cases h with
      | here => exact ⟨_, .here _, (rename_query kind ps rs).symm⟩
      | target rule within =>
        obtain ⟨s, hs, rfl⟩ := RankRule.mem_map_rename.1 rule
        obtain ⟨u, inside, rfl⟩ := ih s hs within
        exact ⟨u, .target hs inside, rfl⟩
  · intro h
    obtain ⟨u, within, rfl⟩ := h
    induction within with
    | here => exact .here _
    | target rule _ ih =>
      rw [rename_query]
      exact .target (RankRule.mem_map_rename.2 ⟨_, rule, rfl⟩) ih

theorem named_within_rename {s : Selector} {name : String} :
    (named name).Within (s.rename ρ) ↔ (named name).Within s := by
  rw [within_rename]
  constructor
  · intro h
    obtain ⟨u, within, same⟩ := h
    cases u with
    | named other =>
      rw [rename_named] at same
      rw [same]
      exact within
    | query kind ps rs =>
      rw [rename_query] at same
      cases same
  · intro within
    exact ⟨_, within, (rename_named name).symm⟩

theorem query_within_rename {s : Selector} {kind : SelectionKind} {ps : List Predicate}
    {rs : List RankRule} : (query kind ps rs).Within (s.rename ρ)
      ↔ ∃ ps' rs', (query kind ps' rs').Within s ∧ ps = ps'.map (Predicate.rename ρ)
        ∧ rs = rs'.map (RankRule.rename ρ) := by
  rw [within_rename]
  constructor
  · intro h
    obtain ⟨u, within, same⟩ := h
    cases u with
    | named name =>
      rw [rename_named] at same
      cases same
    | query kind' ps' rs' =>
      rw [rename_query] at same
      cases same
      exact ⟨ps', rs', within, rfl, rfl⟩
  · intro h
    obtain ⟨ps', rs', within, rfl, rfl⟩ := h
    exact ⟨_, within, (rename_query kind ps' rs').symm⟩

-- ============================================================ naming back

/-- Names that are put back make the selector what it was. -/
theorem rename_rename {s : Selector} (back : ∀ id, s.Names id → σ (ρ id) = id) :
    (s.rename ρ).rename σ = s := by
  induction s using Selector.induction with
  | named name => rw [rename_named, rename_named]
  | query kind ps rs ih =>
    have predicates : (ps.map (Predicate.rename ρ)).map (Predicate.rename σ) = ps := by
      rw [List.map_map]
      refine (List.map_congr_left fun p hp => ?_).trans (List.map_id ps)
      cases p with
      | createdBy feature => exact congrArg Predicate.createdBy (back feature (.creator hp))
      | _ => rfl
    have rules : (rs.map (RankRule.rename ρ)).map (RankRule.rename σ) = rs := by
      rw [List.map_map]
      refine (List.map_congr_left fun r hr => ?_).trans (List.map_id rs)
      cases r with
      | closestTo t =>
        rw [Function.comp_apply, RankRule.rename, RankRule.rename,
          ih t hr fun id names => back id (.target hr names), id_eq]
      | _ => rfl
    rw [rename_query, rename_query, predicates, rules]

end Selector

-- =========================================================== normal forms

/-- A selector can be renamed before or after it is brought to normal form. -/
theorem Selector.normal_rename {known : Set String} (inj : Set.InjOn ρ known) {s : Selector}
    (names : ∀ id, s.Names id → id ∈ known) : (s.rename ρ).normal = s.normal.rename ρ := by
  have back : ∀ id ∈ known, Function.invFunOn ρ known (ρ id) = id := inj.leftInvOn_invFunOn
  induction s using Selector.induction with
  | named name => rw [rename_named, Selector.normal, rename_named]
  | query kind ps rs ih =>
    have rules : (rs.map (RankRule.rename ρ)).map RankRule.normal
        = (rs.map RankRule.normal).map (RankRule.rename ρ) := by
      rw [List.map_map, List.map_map]
      refine List.map_congr_left fun r hr => ?_
      cases r with
      | closestTo t =>
        rw [Function.comp_apply, Function.comp_apply, RankRule.rename, RankRule.normal,
          RankRule.normal, RankRule.rename, ih t hr fun id named => names id (.target hr named)]
      | _ => rfl
    have apart : ∀ p ∈ ps, ∀ q ∈ ps, p.rename ρ = q.rename ρ → p = q := by
      intro p hp q hq same
      cases p with
      | createdBy feature =>
        obtain ⟨other, rfl, equal⟩ := Predicate.rename_eq_createdBy.1 same.symm
        rw [inj (names _ (.creator hp)) (names _ (.creator hq)) equal]
      | _ =>
        cases q <;> first | exact same | cases same
    have apart' : ∀ r ∈ rs.map RankRule.normal, ∀ r' ∈ rs.map RankRule.normal,
        r.rename ρ = r'.rename ρ → r = r' := by
      intro r hr r' hr' same
      have returns {t : Selector} (ht : .closestTo t ∈ rs.map RankRule.normal) :
          (t.rename ρ).rename (Function.invFunOn ρ known) = t := by
        obtain ⟨u, hu, e⟩ := List.mem_map.1 ht
        obtain ⟨s, rfl, rfl⟩ := RankRule.normal_eq_closestTo.1 e
        exact rename_rename fun id named => back id (names id (.target hu (names_of_normal named)))
      cases r with
      | closestTo t =>
        rw [RankRule.rename] at same
        obtain ⟨t', rfl, equal⟩ := RankRule.rename_eq_closestTo.1 same.symm
        rw [← returns hr, ← returns hr', equal]
      | _ =>
        cases r' with
        | closestTo t => simp [RankRule.rename] at same
        | _ => first | rfl | cases same
    rw [rename_query, Selector.normal, Selector.normal, normalRules_eq_map, normalRules_eq_map,
      rename_query, rules, firstOccurrences_map apart, firstOccurrences_map apart']

end PartPlan
