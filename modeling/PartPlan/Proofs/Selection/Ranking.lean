/-
Ranking, said without the steps it takes. Each rule gives each candidate a score, and
rules in a row give it a vector of scores. Ranking keeps the candidates whose vector is
the greatest, where the first entry that differs decides, and it keeps all of them
(`rankBy_eq_greatest`): candidates that tie under every rule stay together.

One rule keeps the candidates whose score is a number that no other score exceeds
(`Scorer.best_eq_unexceeded`). The induction on the rules rests on that: a vector is at
most another if it is so at the first entry and, among those that tie there, in the
rest. NaN is no score in this sense. It exceeds nothing and is exceeded by nothing, and
candidates that have it are dropped by the first rule that is used at all.
-/
import PartPlan.Proofs.Number.Order
import PartPlan.Proofs.Selection.Repetition

namespace PartPlan

-- ================================================================= scores

namespace Selection

/-- The number under a key, if there is one. -/
def number? (x : Selection) (k : MetaKey) : Option Float :=
  (x.metadata.find? k.name).bind MetaValue.number?

/-- The vector under a key, if there is one. -/
def vec3? (x : Selection) (k : MetaKey) : Option Vec3 :=
  (x.metadata.find? k.name).bind MetaValue.vec3?

theorem require_eq_ok {α : Type} {x : Selection} {key : String} {t : MetaType}
    {narrow : MetaValue → Option α} {a : α} :
    x.require key t narrow = .ok a ↔ (x.metadata.find? key).bind narrow = some a := by
  unfold require
  cases (x.metadata.find? key).bind narrow with
  | none => simp
  | some b => simp

theorem requireNumber_eq_ok {x : Selection} {k : MetaKey} {q : Float} :
    x.requireNumber k.name = .ok q ↔ x.number? k = some q := require_eq_ok

theorem requireVec3_eq_ok {x : Selection} {k : MetaKey} {v : Vec3} :
    x.requireVec3 k.name = .ok v ↔ x.vec3? k = some v := require_eq_ok

end Selection

/-- The score of a candidate under a rule, the higher the better: its area, its height
or its depth, or how little it is away from the centre of the selection that the target
stands for. -/
def RankRule.score? (c : ResolutionContext) (r : RankRule) (x : Selection) : Option Float :=
  match r with
  | .maxArea => x.number? .area
  | .minZ => (x.number? .centerZ).map fun z => -z
  | .maxZ => x.number? .centerZ
  | .closestTo target => do
    let reference ← (target.resolve c).toOption
    let center ← reference.vec3? .center
    let own ← x.vec3? .center
    some (-(own.distance center))

/-- A vector of scores is at most another one. The first entry that differs decides. -/
def atMost : List Float → List Float → Bool
  | [], _ => true
  | _ :: _, [] => false
  | p :: ps, q :: qs => p < q || (p == q && atMost ps qs)

/-- The candidates whose vector of scores is the greatest. -/
def greatest (scores : Selection → List Float) (cs : List Selection) : List Selection :=
  cs.filter fun x => cs.all fun y => atMost (scores y) (scores x)

/-- The candidates whose score is a number that no other score exceeds. -/
def unexceeded (score : Selection → Float) (cs : List Selection) : List Selection :=
  cs.filter fun x => !(score x).isNaN && cs.all fun y => !decide (score x < score y)

variable {c : ResolutionContext} {r : RankRule} {rs : List RankRule} {x : Selection}
  {cs kept : List Selection} {score : Selection → Float} {scores : Selection → List Float}

/-- The target of a rule stands for one selection, and the rule uses its centre. -/
theorem prepare_closestTo (target : Selector) :
    (RankRule.closestTo target).prepare c
      = target.resolve c >>= fun reference =>
        (reference.requireVec3 MetaKey.center.name).mapError SelectorError.metaMissing
          >>= fun center => .ok (.closestTo center) := by
  rw [RankRule.prepare, Selector.resolve]
  cases target.resolveAll c <;> rfl

theorem prepare_closestTo_eq_ok {target : Selector} {sc : Scorer} :
    (RankRule.closestTo target).prepare c = .ok sc
      ↔ ∃ reference center, target.resolve c = .ok reference
        ∧ reference.vec3? .center = some center ∧ sc = .closestTo center := by
  rw [prepare_closestTo]
  simp only [Checked.bind_eq_ok, Checked.mapError_eq_ok, Selection.requireVec3_eq_ok]
  constructor
  · rintro ⟨reference, found, center, here, same⟩
    exact ⟨reference, center, found, here, (Except.ok.inj same).symm⟩
  · rintro ⟨reference, center, found, here, rfl⟩
    exact ⟨reference, found, center, here, rfl⟩

/-- A candidate has a score if the rule can be prepared and the scorer gives it one. -/
theorem RankRule.score?_eq_some {q : Float} :
    r.score? c x = some q ↔ ∃ sc, r.prepare c = .ok sc ∧ sc.score x = .ok q := by
  cases r with
  | maxArea => simp [score?, prepare, Scorer.score, Selection.requireNumber_eq_ok]
  | minZ =>
    simp only [score?, prepare, Except.ok.injEq, exists_eq_left', Scorer.score, Checked.bind_eq_ok,
      Selection.requireNumber_eq_ok, Option.map_eq_some_iff, pure, Except.pure]
  | maxZ => simp [score?, prepare, Scorer.score, Selection.requireNumber_eq_ok]
  | closestTo target =>
    simp only [score?, prepare_closestTo_eq_ok, Option.bind_eq_bind, Option.bind_eq_some_iff,
      Checked.toOption_eq_some, Option.some.injEq]
    constructor
    · rintro ⟨reference, found, center, here, own, there, rfl⟩
      refine ⟨.closestTo center, ⟨reference, center, found, here, rfl⟩, ?_⟩
      exact Checked.bind_eq_ok.2 ⟨own, Selection.requireVec3_eq_ok.2 there, rfl⟩
    · rintro ⟨_, ⟨reference, center, found, here, rfl⟩, scored⟩
      obtain ⟨own, there, same⟩ := Checked.bind_eq_ok.1 scored
      exact ⟨reference, found, center, here, own, Selection.requireVec3_eq_ok.1 there,
        Except.ok.inj same⟩

-- =============================================================== one rule

theorem bestKey?_eq_some {keys : List (Option ℤ)} {best : ℤ} :
    bestKey? keys = some best ↔ some best ∈ keys ∧ ∀ k, some k ∈ keys → k ≤ best := by
  unfold bestKey?
  rw [List.max?_eq_some_iff]
  simp only [List.mem_filterMap, id_eq, exists_eq_right]

theorem bestKey?_eq_none {keys : List (Option ℤ)} :
    bestKey? keys = none ↔ ∀ o ∈ keys, o = none := by
  unfold bestKey?
  rw [List.max?_eq_none_iff, List.filterMap_eq_nil_iff]
  rfl

/-- Candidates that are scored by a function are filtered by it. -/
theorem bestScored_map (score : Selection → Float) (cs : List Selection) :
    bestScored (cs.map fun x => (score x, x)) = unexceeded score cs := by
  have keys : (cs.map fun x => (score x, x)).map (fun p => Number.orderKey p.1)
      = cs.map fun x => Number.orderKey (score x) := by
    rw [List.map_map]
    rfl
  unfold bestScored
  rw [keys]
  cases top : bestKey? (cs.map fun x => Number.orderKey (score x)) with
  | none =>
    have unordered := bestKey?_eq_none.1 top
    refine (List.filter_eq_nil_iff.2 fun x hx => ?_).symm
    rw [Number.orderKey_eq_none.1 (unordered _ (List.mem_map_of_mem hx)), Bool.not_true,
      Bool.false_and]
    exact Bool.false_ne_true
  | some best =>
    obtain ⟨member, highest⟩ := bestKey?_eq_some.1 top
    obtain ⟨leader, inside, key⟩ := List.mem_map.1 member
    show ((cs.map fun x => (score x, x)).filter
      fun p => Number.orderKey p.1 == some best).map Prod.snd = _
    rw [List.filter_map, List.map_map]
    refine (List.map_id'' (fun _ => rfl) _).trans (List.filter_congr fun x hx => ?_)
    rw [Bool.eq_iff_iff]
    simp only [Function.comp_apply, beq_iff_eq, Bool.and_eq_true, Bool.not_eq_true',
      List.all_eq_true, decide_eq_false_iff_not]
    constructor
    · intro own
      refine ⟨(Number.orderKey_eq_some.1 own).1, fun y hy exceeded => ?_⟩
      obtain ⟨a, b, ha, hb, below⟩ := Number.lt_iff_orderKey.1 exceeded
      rw [own] at ha
      cases ha
      exact absurd (highest b (hb ▸ List.mem_map_of_mem hy)) (not_le.2 below)
    · rintro ⟨number, unexceeded⟩
      cases own : Number.orderKey (score x) with
      | none =>
        rw [Number.orderKey_eq_none.1 own] at number
        cases number
      | some a =>
        have low := highest a (own ▸ List.mem_map_of_mem hx)
        have high : ¬ a < best := fun below =>
          unexceeded leader inside (Number.lt_iff_orderKey.2 ⟨a, best, own, key, below⟩)
        rw [le_antisymm low (not_lt.1 high)]

theorem mem_unexceeded :
    x ∈ unexceeded score cs
      ↔ x ∈ cs ∧ (score x).isNaN = false ∧ ∀ y ∈ cs, ¬ score x < score y := by
  rw [unexceeded, List.mem_filter, Bool.and_eq_true, Bool.not_eq_true', List.all_eq_true]
  simp only [Bool.not_eq_true', decide_eq_false_iff_not]

/-- Some candidate has the greatest score, unless none of them has a number for one. -/
theorem unexceeded_eq_nil : unexceeded score cs = [] ↔ ∀ x ∈ cs, (score x).isNaN = true := by
  constructor
  · intro none x hx
    rw [← bestScored_map] at none
    unfold bestScored at none
    cases top : bestKey? ((cs.map fun x => (score x, x)).map fun p => Number.orderKey p.1) with
    | none =>
      refine Number.orderKey_eq_none.1 (bestKey?_eq_none.1 top _ ?_)
      exact List.mem_map.2 ⟨(score x, x), List.mem_map.2 ⟨x, hx, rfl⟩, rfl⟩
    | some best =>
      rw [top] at none
      obtain ⟨p, hp, key⟩ := List.mem_map.1 (bestKey?_eq_some.1 top).1
      exact absurd (List.map_eq_nil_iff.1 none)
        (List.ne_nil_of_mem (List.mem_filter.2 ⟨hp, beq_iff_eq.2 key⟩))
  · intro unordered
    refine List.eq_nil_iff_forall_not_mem.2 fun x hx => ?_
    obtain ⟨inside, number, -⟩ := mem_unexceeded.1 hx
    rw [unordered x inside] at number
    cases number

namespace Scorer

variable {sc : Scorer}

/-- A rule keeps the candidates whose score is a number that no other score exceeds. -/
theorem best_eq_unexceeded (scored : ∀ x ∈ cs, sc.score x = .ok (score x)) :
    sc.best cs = .ok (unexceeded score cs) := by
  refine best_eq_ok.2 ⟨cs.map fun x => (score x, x), ?_, (bestScored_map score cs).symm⟩
  refine Checked.mapM_eq_ok.2 (List.forall₂_map_right_iff.2 (List.forall₂_same.2 fun x hx => ?_))
  exact Checked.bind_eq_ok.2 ⟨score x, scored x hx, rfl⟩

/-- It asks every candidate for a score. -/
theorem exists_score_of_best (h : sc.best cs = .ok kept) (hx : x ∈ cs) :
    ∃ q, sc.score x = .ok q := by
  obtain ⟨scored, passed, -⟩ := best_eq_ok.1 h
  obtain ⟨candidates, scores⟩ := scored_spec passed
  rw [← candidates] at hx
  obtain ⟨p, hp, rfl⟩ := List.mem_map.1 hx
  exact ⟨p.1, scores p hp⟩

theorem best_sublist (h : sc.best cs = .ok kept) : kept.Sublist cs := by
  obtain ⟨scored, passed, rfl⟩ := best_eq_ok.1 h
  obtain ⟨candidates, -⟩ := scored_spec passed
  rw [← candidates]
  unfold bestScored
  split
  · exact List.nil_sublist _
  · exact List.filter_sublist.map _

end Scorer

/-- If it gives each of some candidates a score, a rule can be used. -/
theorem RankRule.exists_best (given : ∀ x ∈ cs, r.score? c x = some (score x)) (hx : x ∈ cs) :
    ∃ sc, r.prepare c = .ok sc ∧ sc.best cs = .ok (unexceeded score cs) := by
  obtain ⟨sc, prepared, -⟩ := score?_eq_some.1 (given x hx)
  refine ⟨sc, prepared, Scorer.best_eq_unexceeded fun y hy => ?_⟩
  obtain ⟨sc', prepared', scored⟩ := score?_eq_some.1 (given y hy)
  rw [prepared] at prepared'
  cases prepared'
  exact scored

-- ============================================================ rules in a row

/-- Ranking leaves candidates out, and changes nothing else. -/
theorem rankBy_sublist (h : rankBy c rs cs = .ok kept) : kept.Sublist cs := by
  induction rs generalizing cs with
  | nil =>
    rw [rankBy] at h
    cases h
    exact List.Sublist.refl _
  | cons r rs ih =>
    by_cases few : cs.length ≤ 1
    · rw [rankBy_of_le _ few] at h
      cases h
      exact List.Sublist.refl _
    · rw [rankBy_cons few] at h
      obtain ⟨sc, -, h⟩ := Checked.bind_eq_ok.1 h
      obtain ⟨narrowed, here, h⟩ := Checked.bind_eq_ok.1 h
      exact (ih h).trans (Scorer.best_sublist (Checked.mapError_eq_ok.1 here))

/-- Rules can be taken in two parts. -/
theorem rankBy_append (rs more : List RankRule) (cs : List Selection) :
    rankBy c (rs ++ more) cs = rankBy c rs cs >>= rankBy c more := by
  induction rs generalizing cs with
  | nil =>
    rw [List.nil_append, rankBy]
    rfl
  | cons r rs ih =>
    rw [List.cons_append]
    by_cases few : cs.length ≤ 1
    · rw [rankBy_of_le _ few, rankBy_of_le _ few]
      exact (rankBy_of_le more few).symm
    · rw [rankBy_cons few, rankBy_cons few, bind_assoc]
      refine congrArg _ (funext fun sc => ?_)
      rw [bind_assoc]
      exact congrArg _ (funext fun narrowed => ih narrowed)

-- ============================================================= all the rules

/-- On numbers, a vector is at most another one if it is at the first entry, or if it
ties there and is so in the rest. -/
theorem atMost_cons {p q : Float} {ps qs : List Float} {a b : ℤ}
    (hp : Number.orderKey p = some a) (hq : Number.orderKey q = some b) :
    atMost (p :: ps) (q :: qs) = true ↔ a < b ∨ a = b ∧ atMost ps qs = true := by
  have below : p < q ↔ a < b := by
    rw [Number.lt_iff_orderKey, hp, hq]
    simp
  have tied : (p == q) = true ↔ a = b := by
    rw [Number.beq_iff_orderKey, hp, hq]
    simp [eq_comm]
  rw [atMost, Bool.or_eq_true, Bool.and_eq_true, decide_eq_true_iff, below, tied]

theorem atMost_refl {v : List Float} (numbers : ∀ q ∈ v, q.isNaN = false) :
    atMost v v = true := by
  induction v with
  | nil => rfl
  | cons q v ih =>
    obtain ⟨number, rest⟩ := List.forall_mem_cons.1 numbers
    obtain ⟨k, key⟩ := Number.exists_orderKey number
    exact (atMost_cons key key).2 (.inr ⟨rfl, ih rest⟩)

/-- Of one candidate the vector is the greatest. -/
theorem greatest_of_le (few : cs.length ≤ 1)
    (numbers : ∀ x ∈ cs, ∀ q ∈ scores x, q.isNaN = false) : greatest scores cs = cs := by
  refine List.filter_eq_self.2 fun x hx => List.all_eq_true.2 fun y hy => ?_
  obtain rfl : y = x := by
    match cs with
    | [] => cases hx
    | [z] => rw [List.mem_singleton.1 hx, List.mem_singleton.1 hy]
  exact atMost_refl (numbers y hy)

/-- The greatest vectors are, of those that are not exceeded at the first entry, the
ones that are greatest in the rest. -/
theorem greatest_cons {rest : Selection → List Float}
    (split : ∀ x ∈ cs, scores x = score x :: rest x)
    (numbers : ∀ x ∈ cs, (score x).isNaN = false) :
    greatest scores cs = greatest rest (unexceeded score cs) := by
  obtain ⟨k, key⟩ : ∃ k : Selection → ℤ, ∀ x ∈ cs, Number.orderKey (score x) = some (k x) := by
    refine ⟨fun x => (Number.orderKey (score x)).getD 0, fun x hx => ?_⟩
    obtain ⟨a, ha⟩ := Number.exists_orderKey (numbers x hx)
    simp only [ha, Option.getD_some]
  have top : ∀ x, x ∈ unexceeded score cs ↔ x ∈ cs ∧ ∀ y ∈ cs, k y ≤ k x := by
    intro x
    rw [mem_unexceeded]
    refine and_congr_right fun hx => ?_
    rw [and_iff_right (numbers x hx)]
    refine forall₂_congr fun y hy => ?_
    rw [Number.lt_iff_orderKey, key x hx, key y hy]
    simp
  have inOrder : ∀ x ∈ cs, ∀ y ∈ cs, atMost (scores y) (scores x) = true
      ↔ k y < k x ∨ k y = k x ∧ atMost (rest y) (rest x) = true := by
    intro x hx y hy
    rw [split x hx, split y hy]
    exact atMost_cons (key y hy) (key x hx)
  show cs.filter _ = (cs.filter _).filter _
  rw [List.filter_filter]
  refine List.filter_congr fun x hx => ?_
  have here : x ∈ unexceeded score cs ↔ (!(score x).isNaN
      && cs.all fun y => !decide (score x < score y)) = true := by
    rw [unexceeded, List.mem_filter, and_iff_right hx]
  rw [Bool.eq_iff_iff, Bool.and_eq_true, ← here, top, List.all_eq_true, List.all_eq_true]
  constructor
  · intro all
    have highest : ∀ y ∈ cs, k y ≤ k x := by
      intro y hy
      rcases (inOrder x hx y hy).1 (all y hy) with below | ⟨tied, -⟩
      · exact below.le
      · exact tied.le
    refine ⟨fun y hy => ?_, hx, highest⟩
    obtain ⟨inside, highest'⟩ := (top y).1 hy
    rcases (inOrder x hx y inside).1 (all y inside) with below | ⟨-, later⟩
    · exact absurd (highest' x hx) (not_le.2 below)
    · exact later
  · rintro ⟨later, -, highest⟩ y hy
    refine (inOrder x hx y hy).2 ?_
    rcases (highest y hy).lt_or_eq with below | tied
    · exact .inl below
    · refine .inr ⟨tied, later y ((top y).2 ⟨hy, fun z hz => ?_⟩)⟩
      exact tied ▸ highest z hz

/-- A vector of scores has one for the first rule and the others for the rest. -/
theorem exists_scores_cons
    (scored : ∀ x ∈ cs, (r :: rs).mapM (fun r => r.score? c x) = some (scores x)) :
    ∃ (score : Selection → Float) (rest : Selection → List Float), ∀ x ∈ cs,
      r.score? c x = some (score x) ∧ rs.mapM (fun r => r.score? c x) = some (rest x)
        ∧ scores x = score x :: rest x := by
  refine ⟨fun x => (scores x).headD 0, fun x => (scores x).tail, fun x hx => ?_⟩
  have vector := scored x hx
  rw [List.mapM_cons] at vector
  obtain ⟨q, here, vector⟩ := Option.bind_eq_some_iff.1 vector
  obtain ⟨v, later, same⟩ := Option.bind_eq_some_iff.1 vector
  have split : scores x = q :: v := (Option.some.inj same).symm
  simp only [split, List.headD_cons, List.tail_cons, and_true]
  exact ⟨here, later⟩

/-- If every rule gives every candidate a number for a score, ranking keeps the
candidates whose vector of scores is the greatest. -/
theorem rankBy_eq_greatest
    (scored : ∀ x ∈ cs, rs.mapM (fun r => r.score? c x) = some (scores x))
    (numbers : ∀ x ∈ cs, ∀ q ∈ scores x, q.isNaN = false) :
    rankBy c rs cs = .ok (greatest scores cs) ∧ (cs ≠ [] → greatest scores cs ≠ []) := by
  induction rs generalizing cs scores with
  | nil =>
    have all : greatest scores cs = cs := by
      refine List.filter_eq_self.2 fun x _ => List.all_eq_true.2 fun y hy => ?_
      rw [← Option.some.inj (scored y hy)]
      rfl
    rw [all, rankBy]
    exact ⟨rfl, id⟩
  | cons r rs ih =>
    by_cases few : cs.length ≤ 1
    · rw [greatest_of_le few numbers, rankBy_of_le _ few]
      exact ⟨rfl, id⟩
    · obtain ⟨score, rest, heads⟩ := exists_scores_cons scored
      have split : ∀ x ∈ cs, scores x = score x :: rest x := fun x hx => (heads x hx).2.2
      have number : ∀ x ∈ cs, (score x).isNaN = false := fun x hx =>
        numbers x hx _ (split x hx ▸ List.mem_cons_self)
      have inside : unexceeded score cs ⊆ cs := List.filter_sublist.subset
      obtain ⟨narrowed, some_left⟩ : rankBy c rs (unexceeded score cs)
            = .ok (greatest rest (unexceeded score cs))
          ∧ (unexceeded score cs ≠ [] → greatest rest (unexceeded score cs) ≠ []) := by
        refine ih (fun x hx => (heads x (inside hx)).2.1) fun x hx q hq => ?_
        exact numbers x (inside hx) q (split x (inside hx) ▸ List.mem_cons_of_mem _ hq)
      obtain ⟨leader, hl⟩ : ∃ x, x ∈ cs := List.exists_mem_of_length_pos (by omega)
      obtain ⟨sc, prepared, best⟩ := RankRule.exists_best (fun x hx => (heads x hx).1) hl
      rw [greatest_cons split number, rankBy_cons few, prepared]
      refine ⟨?_, fun _ => some_left fun none => ?_⟩
      · show (sc.best cs).mapError SelectorError.metaMissing >>= rankBy c rs = _
        rw [best]
        exact narrowed
      · have unordered := unexceeded_eq_nil.1 none leader hl
        rw [number leader hl] at unordered
        cases unordered

/-- A single rule on several candidates succeeds if it gives each of them a score, and
keeps those whose score is a number that no other score exceeds. -/
theorem rankBy_singleton_eq_ok (several : 2 ≤ cs.length) :
    rankBy c [r] cs = .ok kept
      ↔ ∃ score : Selection → Float, (∀ x ∈ cs, r.score? c x = some (score x))
        ∧ kept = unexceeded score cs := by
  have inSteps : rankBy c [r] cs
      = r.prepare c >>= fun sc => (sc.best cs).mapError SelectorError.metaMissing := by
    rw [rankBy_cons (by omega)]
    refine congrArg _ (funext fun sc => ?_)
    cases sc.best cs with
    | error e => rfl
    | ok narrowed =>
      show rankBy c [] narrowed = _
      rw [rankBy]
      rfl
  rw [inSteps]
  constructor
  · intro h
    obtain ⟨sc, prepared, h⟩ := Checked.bind_eq_ok.1 h
    have best := Checked.mapError_eq_ok.1 h
    choose! score scored using fun x (hx : x ∈ cs) => Scorer.exists_score_of_best best hx
    refine ⟨score, fun x hx => RankRule.score?_eq_some.2 ⟨sc, prepared, scored x hx⟩, ?_⟩
    rw [Scorer.best_eq_unexceeded scored] at best
    exact (Except.ok.inj best).symm
  · rintro ⟨score, given, rfl⟩
    obtain ⟨leader, hl⟩ : ∃ x, x ∈ cs := List.exists_mem_of_length_pos (by omega)
    obtain ⟨sc, prepared, best⟩ := RankRule.exists_best given hl
    exact Checked.bind_eq_ok.2 ⟨sc, prepared, Checked.mapError_eq_ok.2 best⟩

/-- Ranking keeps the candidates that are the best in lexicographic order, and all that
tie. It leaves some of them out and changes nothing else; rules can be taken in two
parts, errors included; and if every candidate has a number for a score under every
rule, those stay whose vector of scores is the greatest. With a single rule on several
candidates NaN never stays, so that nothing does exactly if every score is NaN. -/
theorem rankBy_lexicographic (c : ResolutionContext) (rs : List RankRule)
    (cs : List Selection) :
    (∀ kept, rankBy c rs cs = .ok kept → kept.Sublist cs)
    ∧ (∀ more, rankBy c (rs ++ more) cs = rankBy c rs cs >>= rankBy c more)
    ∧ (∀ scores : Selection → List Float,
      (∀ x ∈ cs, rs.mapM (fun r => r.score? c x) = some (scores x)) →
      (∀ x ∈ cs, ∀ q ∈ scores x, q.isNaN = false) →
      rankBy c rs cs = .ok (cs.filter fun x => cs.all fun y => atMost (scores y) (scores x))
        ∧ (cs ≠ [] → rankBy c rs cs ≠ .ok []))
    ∧ ∀ r, 2 ≤ cs.length →
      ((∃ kept, rankBy c [r] cs = .ok kept) ↔ ∀ x ∈ cs, ∃ q, r.score? c x = some q)
      ∧ ∀ kept, rankBy c [r] cs = .ok kept →
        (∀ x ∈ kept, ∃ q, r.score? c x = some q ∧ q.isNaN = false)
        ∧ (kept = [] ↔ ∀ x ∈ cs, ∃ q, r.score? c x = some q ∧ q.isNaN = true) := by
  refine ⟨fun kept => rankBy_sublist, fun more => rankBy_append rs more cs, ?_, ?_⟩
  · intro scores scored numbers
    obtain ⟨all, some_left⟩ := rankBy_eq_greatest scored numbers
    refine ⟨all, fun candidates none => some_left candidates ?_⟩
    rw [all] at none
    exact Except.ok.inj none
  · intro r several
    refine ⟨⟨?_, ?_⟩, fun kept h => ?_⟩
    · rintro ⟨kept, h⟩ x hx
      obtain ⟨score, given, -⟩ := (rankBy_singleton_eq_ok several).1 h
      exact ⟨score x, given x hx⟩
    · intro defined
      choose! score given using defined
      exact ⟨_, (rankBy_singleton_eq_ok several).2 ⟨score, given, rfl⟩⟩
    · obtain ⟨score, given, rfl⟩ := (rankBy_singleton_eq_ok several).1 h
      refine ⟨fun x hx => ?_, unexceeded_eq_nil.trans (forall₂_congr fun x hx => ?_)⟩
      · obtain ⟨inside, number, -⟩ := mem_unexceeded.1 hx
        exact ⟨score x, given x inside, number⟩
      · rw [given x hx]
        simp only [Option.some.injEq, exists_eq_left']

/-- A face with an area, at a height. -/
def slab (id : String) (area height : Float) : Selection :=
  ⟨id, .face, .ofList [(MetaKey.area.name, .number area), (MetaKey.centerZ.name, .number height),
    (MetaKey.center.name, .vec3 ⟨0, 0, height⟩)]⟩

/-- Three slabs that go on forever, two of them equally far from the floor, and one
that does not. -/
def slabs : List Selection :=
  [slab "low" (1 / 0) (-1), slab "far" (1 / 0) 7, slab "high" (1 / 0) 1, slab "small" 4 0]

/-- A context that knows the floor. -/
def onFloor : ResolutionContext := ResolutionContext.empty.register "floor" (slab "floor" 9 0)

/-- The same slabs without an area. -/
def unmeasured : List Selection := slabs.map fun x => slab x.id (0 / 0) 0

/-- By area, and then by how near they are to the floor, two of the slabs tie. Without
an area nothing is left of them. -/
theorem slabs_ranked :
    rankBy onFloor [.maxArea, .closestTo (.named "floor")] slabs
        = .ok [slab "low" (1 / 0) (-1), slab "high" (1 / 0) 1]
      ∧ rankBy onFloor [.maxArea] unmeasured = .ok [] := by
  constructor
  · let scores (x : Selection) : List Float :=
      [(x.number? .area).getD 0, (RankRule.score? onFloor (.closestTo (.named "floor")) x).getD 0]
    have ranked := ((rankBy_lexicographic onFloor [.maxArea, .closestTo (.named "floor")]
      slabs).2.2.1 scores (by decide +kernel) (by decide +kernel)).1
    rw [ranked]
    refine congrArg Except.ok ?_
    decide +kernel
  · obtain ⟨succeeds, stays⟩ :=
      (rankBy_lexicographic onFloor [] unmeasured).2.2.2 .maxArea (by decide +kernel)
    have scored : ∀ x ∈ unmeasured, RankRule.score? onFloor .maxArea x = some (0 / 0) := by
      decide +kernel
    obtain ⟨kept, ranked⟩ := succeeds.2 fun x hx => ⟨_, scored x hx⟩
    rw [ranked, (stays kept ranked).2.2 fun x hx => ⟨_, scored x hx, by decide +kernel⟩]

end PartPlan
