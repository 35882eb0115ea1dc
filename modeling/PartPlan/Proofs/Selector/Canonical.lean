/-
The normal form of a selector as the one that stands for all that ask the same with
repetitions. Its lists are the first occurrences of those of the selector, the rank
rules after their targets have been brought to normal form, and `IsFirstOccurrences`
says what that is without saying how they are found: it leaves only one list.

A selector may repeat itself in three places: a predicate after an equal one, a rule
after one that has the same normal form, or anything in the target of a rule.
`Selector.Repeats` is one such repetition taken out. A step keeps the normal form, and
the normal form is reached by such steps, so two selectors have the same normal form
exactly if repetitions are all they differ by (`Selector.normal_canonical`).
-/
import Mathlib.Logic.Relation
import PartPlan.Proofs.Selector.Anchors
import PartPlan.Plan.Fingerprint

namespace PartPlan

open Relation (ReflTransGen EqvGen)

-- ====================================================== first occurrences

section FirstOccurrences

variable {α : Type} [DecidableEq α] {l l' : List α}

/-- A list is what is left of another when each member stands only where it stands
first: the members are the same, none stands twice, and they are in the order of the
places where they stand first. -/
structure IsFirstOccurrences (l l' : List α) : Prop where
  sublist : l'.Sublist l
  nodup : l'.Nodup
  complete : ∀ a ∈ l, a ∈ l'
  order : l'.Pairwise fun a b => l.idxOf a < l.idxOf b

theorem isFirstOccurrences (l : List α) : IsFirstOccurrences l (firstOccurrences l) where
  sublist := firstOccurrences_sublist l
  nodup := nodup_firstOccurrences l
  complete _ h := mem_firstOccurrences.2 h
  order := by
    induction l with
    | nil => exact .nil
    | cons a l ih =>
      have other : ∀ b ∈ (firstOccurrences l).filter (· ≠ a), a ≠ b := fun b hb same => by
        simpa [same] using (List.mem_filter.1 hb).2
      rw [firstOccurrences, List.pairwise_cons]
      refine ⟨fun b hb => ?_, (ih.filter _).imp_of_mem fun {b c} hb hc before => ?_⟩
      · rw [List.idxOf_cons_self, List.idxOf_cons_ne l (other b hb)]
        exact Nat.succ_pos _
      · rw [List.idxOf_cons_ne l (other b hb), List.idxOf_cons_ne l (other c hc)]
        exact Nat.succ_lt_succ before

/-- There is only one such list. -/
theorem isFirstOccurrences_iff : IsFirstOccurrences l l' ↔ l' = firstOccurrences l := by
  have found := isFirstOccurrences l
  refine ⟨fun h => ?_, fun h => h ▸ found⟩
  have same : l'.Perm (firstOccurrences l) := by
    refine (List.perm_ext_iff_of_nodup h.nodup found.nodup).2 fun a => ?_
    exact ⟨fun ha => found.complete a (h.sublist.subset ha),
      fun ha => h.complete a (found.sublist.subset ha)⟩
  exact same.eq_of_pairwise (fun _ _ _ _ before after => absurd before (Nat.lt_asymm after))
    h.order found.order

end FirstOccurrences

-- ================================================= repetitions, taken out

section Repetitions

variable {α β : Type} {f : α → β} {l l' : List α} {a : α}

/-- A list without one member that stands after another with the same image. -/
inductive DropsRepetition (f : α → β) : List α → List α → Prop
  | drop {l l' : List α} {a : α} (present : f a ∈ l.map f) :
      DropsRepetition f (l ++ a :: l') (l ++ l')

theorem DropsRepetition.cons (h : DropsRepetition f l l') (a : α) :
    DropsRepetition f (a :: l) (a :: l') := by
  cases h with
  | @drop before after b present =>
    exact .drop (l := a :: before) (List.mem_cons_of_mem _ present)

/-- A repetition makes no difference to the first occurrences. -/
theorem DropsRepetition.firstOccurrences_map [DecidableEq β] (h : DropsRepetition f l l') :
    firstOccurrences (l.map f) = firstOccurrences (l'.map f) := by
  cases h with
  | @drop before after a present =>
    have left_out : ((firstOccurrences (f a :: after.map f)).filter (· ∉ before.map f))
        = (firstOccurrences (after.map f)).filter (· ∉ before.map f) := by
      rw [firstOccurrences, List.filter_cons_of_neg (by simpa using present), List.filter_filter]
      refine List.filter_congr fun b _ => ?_
      by_cases same : b = f a
      · simp [same, List.mem_map.1 present]
      · simp [same]
    rw [List.map_append, List.map_append, List.map_cons, firstOccurrences_append,
      firstOccurrences_append, left_out]

/-- What a list has in its first part can be dropped from the rest. -/
theorem dropsRepetition_filter [DecidableEq α] (present : a ∈ l) (rest : List α) :
    ReflTransGen (DropsRepetition f) (l ++ rest) (l ++ rest.filter (· ≠ a)) := by
  induction rest generalizing l with
  | nil => exact .refl
  | cons b rest ih =>
    by_cases same : b = a
    · rw [List.filter_cons_of_neg (by simp [same]), same]
      exact .head (.drop (List.mem_map_of_mem present)) (ih present)
    · have kept := ih (l := l ++ [b]) (List.mem_append_left _ present)
      rw [List.append_assoc, List.append_assoc] at kept
      rw [List.filter_cons_of_pos (by simp [same])]
      exact kept

/-- Repetitions can be dropped until only first occurrences are left. -/
theorem dropsRepetition_firstOccurrences [DecidableEq α] (f : α → β) (l : List α) :
    ReflTransGen (DropsRepetition f) l (firstOccurrences l) := by
  induction l with
  | nil => exact .refl
  | cons a l ih =>
    have rest : ReflTransGen (DropsRepetition f) (a :: l) (a :: firstOccurrences l) :=
      ih.lift (a :: ·) fun _ _ h => h.cons a
    exact rest.trans (dropsRepetition_filter (l := [a]) List.mem_cons_self (firstOccurrences l))

end Repetitions

-- ============================================================== selectors

namespace Selector

/-- The second selector is the first without one repetition: a predicate that stands
before it in its list, a rule that has the normal form of one before it, or a
repetition in the target of a rule. -/
inductive Repeats : Selector → Selector → Prop
  | predicates {kind : SelectionKind} {ps qs : List Predicate} {rs : List RankRule}
      (dropped : DropsRepetition id ps qs) : Repeats (.query kind ps rs) (.query kind qs rs)
  | rules {kind : SelectionKind} {ps : List Predicate} {rs ts : List RankRule}
      (dropped : DropsRepetition RankRule.normal rs ts) :
      Repeats (.query kind ps rs) (.query kind ps ts)
  | target {kind : SelectionKind} {ps : List Predicate} {rs ts : List RankRule} {s t : Selector}
      (inside : Repeats s t) :
      Repeats (.query kind ps (rs ++ .closestTo s :: ts)) (.query kind ps (rs ++ .closestTo t :: ts))

variable {s t : Selector}

theorem normal_query (kind : SelectionKind) (ps : List Predicate) (rs : List RankRule) :
    (query kind ps rs).normal
      = .query kind (firstOccurrences ps) (firstOccurrences (rs.map RankRule.normal)) := by
  rw [normal, normalRules_eq_map]

/-- A repetition makes no difference to the normal form. -/
theorem Repeats.normal_eq (h : Repeats s t) : s.normal = t.normal := by
  induction h with
  | predicates dropped =>
    have same := dropped.firstOccurrences_map
    rw [List.map_id, List.map_id] at same
    rw [normal_query, normal_query, same]
  | rules dropped => rw [normal_query, normal_query, dropped.firstOccurrences_map]
  | target inside ih =>
    rw [normal_query, normal_query, List.map_append, List.map_append, List.map_cons,
      List.map_cons, RankRule.normal, RankRule.normal, ih]

/-- Targets can be brought to normal form one after the other. -/
theorem repeats_normalRules {kind : SelectionKind} {ps : List Predicate} {rs : List RankRule}
    (targets : ∀ t, RankRule.closestTo t ∈ rs → ReflTransGen Repeats t t.normal)
    (before : List RankRule) :
    ReflTransGen Repeats (.query kind ps (before ++ rs))
      (.query kind ps (before ++ rs.map RankRule.normal)) := by
  induction rs generalizing before with
  | nil => exact .refl
  | cons r rs ih =>
    have rest := ih (fun t ht => targets t (List.mem_cons_of_mem _ ht)) (before ++ [r.normal])
    rw [List.append_assoc, List.append_assoc] at rest
    refine .trans ?_ rest
    cases r with
    | closestTo t =>
      exact (targets t List.mem_cons_self).lift
        (fun u => query kind ps (before ++ .closestTo u :: rs)) fun _ _ inside => .target inside
    | _ => exact .refl

/-- Without its repetitions a selector is its normal form. -/
theorem repeats_normal (s : Selector) : ReflTransGen Repeats s s.normal := by
  induction s using Selector.induction with
  | named name =>
    rw [normal]
  | query kind ps rs ih =>
    rw [normal_query]
    have predicates : ReflTransGen Repeats (.query kind ps rs)
        (.query kind (firstOccurrences ps) rs) :=
      (dropsRepetition_firstOccurrences id ps).lift (query kind · rs) fun _ _ => .predicates
    have rules : ReflTransGen Repeats (.query kind (firstOccurrences ps) (rs.map RankRule.normal))
        (.query kind (firstOccurrences ps) (firstOccurrences (rs.map RankRule.normal))) :=
      (dropsRepetition_firstOccurrences RankRule.normal _).lift (query kind _ ·) fun _ _ => .rules
    exact (predicates.trans (repeats_normalRules ih [])).trans rules

/-- The normal form of a selector is canonical. It has no member twice in any of its
lists and is its own normal form. A named output stays as it is. A query keeps its kind,
and its lists are reduced to first occurrences, that of the rules after their targets
have been brought to normal form. Two selectors have the same normal form exactly if they
differ by repetitions alone, and so these have the same text and the same hashes. -/
theorem normal_canonical (s : Selector) :
    s.normal.IsNormal ∧ s.normal.normal = s.normal
    ∧ (∀ name, (named name).normal = named name)
    ∧ (∀ kind ps rs t, (query kind ps rs).normal = t ↔ ∃ ps' rs', t = query kind ps' rs'
      ∧ IsFirstOccurrences ps ps' ∧ IsFirstOccurrences (rs.map RankRule.normal) rs')
    ∧ (∀ t, EqvGen Repeats s t ↔ s.normal = t.normal)
    ∧ ∀ t, EqvGen Repeats s t → s.normal.toJson.bytes = t.normal.toJson.bytes
      ∧ Digest.xxHash64Hex s.normal.toJson.bytes = Digest.xxHash64Hex t.normal.toJson.bytes
      ∧ Digest.sha256Hex s.normal.toJson.bytes = Digest.sha256Hex t.normal.toJson.bytes := by
  have unique : ∀ t, EqvGen Repeats s t ↔ s.normal = t.normal := by
    refine fun t => ⟨fun h => ?_, fun same => ?_⟩
    · induction h with
      | rel s t step => exact step.normal_eq
      | refl s => rfl
      | symm s t _ ih => exact ih.symm
      | trans s t u _ _ ih ih' => exact ih.trans ih'
    · have left := Relation.EqvGen.reflTransGen_le_eqvGen _ _ _ (repeats_normal s)
      have right := Relation.EqvGen.reflTransGen_le_eqvGen _ _ _ (repeats_normal t)
      exact left.trans _ _ _ (same ▸ right.symm _ _)
  refine ⟨s.isNormal_normal, s.normal_normal, fun name => by rw [normal], fun kind ps rs t => ?_,
    unique, fun t h => ?_⟩
  · simp only [normal_query, isFirstOccurrences_iff]
    constructor
    · exact fun h => ⟨_, _, h.symm, rfl, rfl⟩
    · rintro ⟨_, _, rfl, rfl, rfl⟩
      rfl
  · rw [(unique t).1 h]
    exact ⟨rfl, rfl, rfl⟩

/-- A query for the edge nearest to a planar edge. -/
def nearPlanar : Selector := query .edge [] [.closestTo (query .edge [.planar] [])]

/-- The same, with what it says said twice in two places. -/
def nearPlanarTwice : Selector :=
  query .edge [] [.closestTo (query .edge [.planar, .planar] []),
    .closestTo (query .edge [.planar] [])]

/-- Only repetitions tell the two apart, so they have one hash. -/
theorem nearPlanarTwice_hash :
    EqvGen Repeats nearPlanarTwice nearPlanar
      ∧ Digest.xxHash64Hex nearPlanarTwice.normal.toJson.bytes
        = Digest.xxHash64Hex nearPlanar.normal.toJson.bytes := by
  obtain ⟨-, -, -, -, unique, same⟩ := normal_canonical nearPlanarTwice
  have repeated : EqvGen Repeats nearPlanarTwice nearPlanar := (unique nearPlanar).2 (by decide)
  exact ⟨repeated, (same nearPlanar repeated).2.1⟩

end Selector
end PartPlan
