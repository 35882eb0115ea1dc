/-
What the normal form of a selector is pinned to. Where repetitions are removed
anchors go with them, those of a repeated predicate and those of the whole target
of a repeated rule. But each of these has an equal further to the left, so the
anchors of the normal form and those of the selector are the same up to
repetition (`Selector.anchors_normal`); `SameFirst` is that relation, and the
first half of the module says what it is kept by.

Whoever looks up anchors from left to right, up to the first that refers to
nothing, can tell no more of two such lists than that they are the same
(`SameFirst.mapM_congr`), and so a normal form is pinned to the same features.
-/
import PartPlan.Proofs.Checked
import PartPlan.Proofs.Selector.Normal

namespace PartPlan

-- ================================================== the same up to repetition

section Lists

variable {α β : Type} [DecidableEq α] [DecidableEq β] {l l' m m' : List α}

theorem mem_firstOccurrences {a : α} : a ∈ firstOccurrences l ↔ a ∈ l := by
  induction l with
  | nil => rfl
  | cons b l ih =>
    rw [firstOccurrences, List.mem_cons, List.mem_filter, ih, List.mem_cons]
    by_cases same : a = b
    · simp [same]
    · simp [same]

theorem firstOccurrences_filter (p : α → Bool) (l : List α) :
    firstOccurrences (l.filter p) = (firstOccurrences l).filter p := by
  induction l with
  | nil => rfl
  | cons a l ih =>
    rw [firstOccurrences]
    by_cases keep : p a = true
    · rw [List.filter_cons_of_pos keep, List.filter_cons_of_pos keep, firstOccurrences, ih,
        List.filter_comm]
    · -- what is dropped here cannot be one of those that `p` keeps
      rw [List.filter_cons_of_neg keep, List.filter_cons_of_neg keep, ih, List.filter_filter]
      refine List.filter_congr fun b _ => ?_
      by_cases same : b = a
      · simp [same, keep]
      · simp [same]

/-- Of a second list those members are added that the first one has not. -/
theorem firstOccurrences_append (l l' : List α) :
    firstOccurrences (l ++ l') = firstOccurrences l ++ (firstOccurrences l').filter (· ∉ l) := by
  induction l with
  | nil => simp [firstOccurrences]
  | cons a l ih =>
    rw [List.cons_append, firstOccurrences, ih, List.filter_append, List.filter_filter,
      firstOccurrences, List.cons_append]
    congr 2
    refine List.filter_congr fun b _ => ?_
    simp [List.mem_cons]

/-- Two lists have the same members, in the same order by where they stand
first. -/
def SameFirst (l l' : List α) : Prop := firstOccurrences l = firstOccurrences l'

namespace SameFirst

theorem refl (l : List α) : SameFirst l l := rfl

theorem symm (h : SameFirst l l') : SameFirst l' l := Eq.symm h

theorem trans (h : SameFirst l l') (h' : SameFirst l' m) : SameFirst l m := Eq.trans h h'

theorem of_firstOccurrences (l : List α) : SameFirst (firstOccurrences l) l :=
  firstOccurrences_eq_self (nodup_firstOccurrences l)

theorem mem_iff (h : SameFirst l l') {a : α} : a ∈ l ↔ a ∈ l' := by
  rw [← mem_firstOccurrences, h, mem_firstOccurrences]

theorem eq_nil_iff (h : SameFirst l l') : l = [] ↔ l' = [] := by
  simp only [List.eq_nil_iff_forall_not_mem, h.mem_iff]

theorem append (h : SameFirst l l') (h' : SameFirst m m') : SameFirst (l ++ m) (l' ++ m') := by
  unfold SameFirst
  rw [firstOccurrences_append, firstOccurrences_append, h, h']
  simp only [h.mem_iff]

omit [DecidableEq β] in
theorem flatMap_congr {f g : β → List α} {l : List β} (each : ∀ b ∈ l, SameFirst (f b) (g b)) :
    SameFirst (l.flatMap f) (l.flatMap g) := by
  induction l with
  | nil => exact refl []
  | cons b l ih =>
    obtain ⟨here, later⟩ := List.forall_mem_cons.1 each
    rw [List.flatMap_cons, List.flatMap_cons]
    exact here.append (ih later)

/-- After what has been made of `a`, it need not be made again. -/
theorem append_flatMap_filter (a : α) (f : α → List β) (l : List α) :
    SameFirst (f a ++ (l.filter (· ≠ a)).flatMap f) (f a ++ l.flatMap f) := by
  have rest : ((l.filter (· ≠ a)).flatMap f).filter (· ∉ f a)
      = (l.flatMap f).filter (· ∉ f a) := by
    rw [List.filter_flatMap, List.filter_flatMap]
    induction l with
    | nil => rfl
    | cons b l ih =>
      by_cases same : b = a
      · have nothing : (f a).filter (· ∉ f a) = [] := by simp
        rw [List.filter_cons_of_neg (by simpa using same), ih, List.flatMap_cons, same, nothing,
          List.nil_append]
      · rw [List.filter_cons_of_pos (by simpa using same), List.flatMap_cons, List.flatMap_cons, ih]
  unfold SameFirst
  rw [firstOccurrences_append, firstOccurrences_append, ← firstOccurrences_filter, rest,
    firstOccurrences_filter]

theorem flatMap_firstOccurrences (f : α → List β) (l : List α) :
    SameFirst ((firstOccurrences l).flatMap f) (l.flatMap f) := by
  induction l with
  | nil => exact refl []
  | cons a l ih =>
    rw [firstOccurrences, List.flatMap_cons, List.flatMap_cons]
    exact (append_flatMap_filter a f _).trans ((refl (f a)).append ih)

theorem flatMap (h : SameFirst l l') (f : α → List β) :
    SameFirst (l.flatMap f) (l'.flatMap f) := by
  have through := flatMap_firstOccurrences f l
  rw [h] at through
  exact through.symm.trans (flatMap_firstOccurrences f l')

theorem map (h : SameFirst l l') (f : α → β) : SameFirst (l.map f) (l'.map f) := by
  rw [List.map_eq_flatMap, List.map_eq_flatMap]
  exact h.flatMap _

theorem filterMap (h : SameFirst l l') (f : α → Option β) :
    SameFirst (l.filterMap f) (l'.filterMap f) := by
  rw [List.filterMap_eq_flatMap_toList, List.filterMap_eq_flatMap_toList]
  exact h.flatMap _

end SameFirst

/-- What is found first is found where it stands first. -/
theorem findSome?_firstOccurrences {γ : Type} (f : α → Option γ) (l : List α) :
    (firstOccurrences l).findSome? f = l.findSome? f := by
  have skip : ∀ a, f a = none → ∀ l : List α, (l.filter (· ≠ a)).findSome? f = l.findSome? f := by
    intro a nothing l
    induction l with
    | nil => rfl
    | cons b l ih =>
      by_cases same : b = a
      · rw [List.filter_cons_of_neg (by simpa using same), ih, List.findSome?_cons, same, nothing]
      · rw [List.filter_cons_of_pos (by simpa using same), List.findSome?_cons,
          List.findSome?_cons, ih]
  induction l with
  | nil => rfl
  | cons a l ih =>
    rw [firstOccurrences, List.findSome?_cons, List.findSome?_cons]
    cases found : f a with
    | some b => rfl
    | none => exact (skip a found _).trans ih

theorem SameFirst.findSome?_eq {γ : Type} (h : SameFirst l l') (f : α → Option γ) :
    l.findSome? f = l'.findSome? f := by
  rw [← findSome?_firstOccurrences, h, findSome?_firstOccurrences]

/-- A pass over two such lists fails with the same error, or succeeds with the
same set of results. -/
theorem SameFirst.mapM_congr {ε γ δ : Type} {f : α → Except ε γ} {g : List γ → δ}
    (sets : ∀ r r' : List γ, (∀ c, c ∈ r ↔ c ∈ r') → g r = g r') (h : SameFirst l l') :
    (l.mapM f).map g = (l'.mapM f).map g := by
  have errors : ∀ e, l.mapM f = .error e ↔ l'.mapM f = .error e := by
    intro e
    rw [Checked.mapM_eq_error, Checked.mapM_eq_error, h.findSome?_eq]
  cases left : l.mapM f with
  | error e => rw [(errors e).1 left]
  | ok r =>
    cases right : l'.mapM f with
    | error e =>
      have failed := (errors e).2 right
      rw [left] at failed
      cases failed
    | ok r' =>
      refine congrArg Except.ok (sets r r' fun c => ?_)
      rw [Checked.mem_of_mapM_eq_ok left, Checked.mem_of_mapM_eq_ok right]
      simp only [h.mem_iff]

end Lists

theorem TextSet.ofList_congr {l l' : List String} (same : ∀ s, s ∈ l ↔ s ∈ l') :
    TextSet.ofList l = TextSet.ofList l' := by
  refine SortedMap.ext_find? fun s => ?_
  rw [TextSet.ofList, TextSet.ofList, SortedMap.find?_ofList_map fun _ => (),
    SortedMap.find?_ofList_map fun _ => ()]
  simp only [same]

-- ================================================================== anchors

deriving instance DecidableEq for Anchor

/-- An anchor with its free query in normal form. -/
def Anchor.normal : Anchor → Anchor
  | output name => .output name
  | creator feature => .creator feature
  | free query => .free query.normal

theorem rulesAnchors_eq_flatMap (rs : List RankRule) :
    rulesAnchors rs = rs.flatMap RankRule.anchors := by
  induction rs with
  | nil => rfl
  | cons r rs ih => rw [rulesAnchors, List.flatMap_cons, ih]

section Query

variable {kind : SelectionKind} {ps : List Predicate} {rs : List RankRule}

theorem queryAnchors_of_free (free : ps.filterMap Predicate.creator? = []) :
    queryAnchors kind ps rs = [.free (.query kind ps rs)] := by
  unfold queryAnchors
  rw [free]

theorem queryAnchors_of_named (named : ps.filterMap Predicate.creator? ≠ []) :
    queryAnchors kind ps rs = (ps.filterMap Predicate.creator?).map .creator := by
  unfold queryAnchors
  cases creators : ps.filterMap Predicate.creator? with
  | nil => exact absurd creators named
  | cons c cs => rfl

/-- A query in normal form has the anchors of its own that it had. -/
theorem queryAnchors_normal :
    SameFirst (queryAnchors kind (firstOccurrences ps) (firstOccurrences (normalRules rs)))
      ((queryAnchors kind ps rs).map Anchor.normal) := by
  have creators : SameFirst ((firstOccurrences ps).filterMap Predicate.creator?)
      (ps.filterMap Predicate.creator?) :=
    (SameFirst.of_firstOccurrences ps).filterMap _
  by_cases free : ps.filterMap Predicate.creator? = []
  · rw [queryAnchors_of_free free, queryAnchors_of_free (creators.eq_nil_iff.2 free)]
    show SameFirst _ [Anchor.free (Selector.query kind ps rs).normal]
    rw [Selector.normal]
    exact SameFirst.refl _
  · rw [queryAnchors_of_named free, queryAnchors_of_named (mt creators.eq_nil_iff.1 free),
      List.map_map]
    exact creators.map _

end Query

theorem RankRule.anchors_normal {r : RankRule}
    (target : ∀ t, r = .closestTo t → SameFirst t.normal.anchors (t.anchors.map Anchor.normal)) :
    SameFirst r.normal.anchors (r.anchors.map Anchor.normal) := by
  cases r with
  | maxArea => exact SameFirst.refl _
  | minZ => exact SameFirst.refl _
  | maxZ => exact SameFirst.refl _
  | closestTo t =>
    rw [RankRule.normal]
    exact target t rfl

/-- The anchors of a normal form are those of the selector up to repetition. -/
theorem Selector.anchors_normal (s : Selector) :
    SameFirst s.normal.anchors (s.anchors.map Anchor.normal) := by
  induction s using Selector.induction with
  | named name => exact SameFirst.refl _
  | query kind ps rs ih =>
    rw [Selector.normal, anchors, anchors, List.map_append]
    refine queryAnchors_normal.append ?_
    rw [rulesAnchors_eq_flatMap, rulesAnchors_eq_flatMap, normalRules_eq_map, List.map_flatMap]
    refine (SameFirst.flatMap_firstOccurrences _ _).trans ?_
    rw [List.flatMap_map]
    exact SameFirst.flatMap_congr fun r hr => RankRule.anchors_normal fun t e => ih t (e ▸ hr)

-- ================================================================= analysis

theorem Anchor.feature?_normal (scope : AnchorScope) (a : Anchor) :
    a.normal.feature? scope = a.feature? scope := by
  cases a <;> rfl

theorem Anchor.query?_normal (a : Anchor) : a.normal.query? = a.query?.map Selector.normal := by
  cases a <;> rfl

namespace Selector

theorem filterMap_query?_normal (anchors : List Anchor) :
    (anchors.map Anchor.normal).filterMap Anchor.query?
      = (anchors.filterMap Anchor.query?).map Selector.normal := by
  rw [List.filterMap_map, List.map_filterMap]
  exact List.filterMap_congr fun a _ => a.query?_normal

/-- A normal form has free queries if the selector has. -/
theorem unanchored_normal (s : Selector) :
    (s.normal.anchors.filterMap Anchor.query?).isEmpty
      = (s.anchors.filterMap Anchor.query?).isEmpty := by
  have same := s.anchors_normal.filterMap Anchor.query?
  rw [filterMap_query?_normal] at same
  rw [Bool.eq_iff_iff, List.isEmpty_iff, List.isEmpty_iff, same.eq_nil_iff, List.map_eq_nil_iff]

/-- A normal form is pinned to the same features as the selector, is pinned in
full if the selector is, and refers to nothing where the selector does. -/
theorem analyze_normal (scope : AnchorScope) (s : Selector) :
    (s.normal.analyze scope).map (fun a => (a.features, a.isFull))
      = (s.analyze scope).map fun a => (a.features, a.isFull) := by
  have analysis : ∀ t : Selector, (t.analyze scope).map (fun a => (a.features, a.isFull))
      = (t.anchors.mapM (Anchor.feature? scope)).map fun found =>
        (TextSet.ofList (found.filterMap id), (t.anchors.filterMap Anchor.query?).isEmpty) := by
    intro t
    unfold analyze
    cases t.anchors.mapM (Anchor.feature? scope) with
    | error e => rfl
    | ok found => rfl
  have looked_up : (s.anchors.map Anchor.normal).mapM (Anchor.feature? scope)
      = s.anchors.mapM (Anchor.feature? scope) := by
    rw [List.mapM_map]
    exact congrArg (s.anchors.mapM ·) (funext fun a => a.feature?_normal scope)
  rw [analysis, analysis, unanchored_normal, ← looked_up]
  refine s.anchors_normal.mapM_congr fun found found' same => ?_
  have features : TextSet.ofList (found.filterMap id) = TextSet.ofList (found'.filterMap id) := by
    refine TextSet.ofList_congr fun feature => ?_
    simp only [List.mem_filterMap, same]
  rw [features]

end Selector
end PartPlan
