/-
Asking twice changes nothing. A predicate that is met again is tested only on
selections that satisfy it. A rank rule that is met again is used only on
candidates that have come through it and so all have the same score under
it; `Scorer.Tied` is that property. Every later rule keeps some of the
candidates, so it still holds wherever between them the rule is met again,
and the rule then keeps them all.
-/
import PartPlan.Proofs.Checked
import PartPlan.Selection.Resolve
import PartPlan.Selector.Normal

namespace PartPlan

-- ============================================================ predicates

theorem allHold_filter {s : Selection} {p : Predicate} (holds : p.holds s = .ok true)
    (ps : List Predicate) : allHold s (ps.filter (· ≠ p)) = allHold s ps := by
  induction ps with
  | nil => rfl
  | cons q ps ih =>
    by_cases e : q = p
    · subst e
      rw [List.filter_cons_of_neg (by simp), ih, allHold, holds]
      rfl
    · rw [List.filter_cons_of_pos (by simpa using e), allHold, allHold, ih]

/-- A repeated predicate can be left out. -/
theorem allHold_firstOccurrences (s : Selection) (ps : List Predicate) :
    allHold s (firstOccurrences ps) = allHold s ps := by
  induction ps with
  | nil => rfl
  | cons p ps ih =>
    rw [firstOccurrences, allHold, allHold]
    cases holds : p.holds s with
    | error e => rfl
    | ok b =>
      cases b with
      | false => rfl
      | true =>
        show allHold s ((firstOccurrences ps).filter (· ≠ p)) = allHold s ps
        rw [allHold_filter holds, ih]

theorem satisfying_firstOccurrences (ps : List Predicate) (cs : List Selection) :
    satisfying (firstOccurrences ps) cs = satisfying ps cs := by
  induction cs with
  | nil => rfl
  | cons s cs ih => rw [satisfying, satisfying, allHold_firstOccurrences, ih]

-- =============================================================== ranking

namespace Scorer

variable {r : Scorer} {cs kept : List Selection}

/-- The candidates all have one score, which is not NaN. -/
def Tied (r : Scorer) (cs : List Selection) : Prop :=
  ∃ k, ∀ s ∈ cs, ∃ x, r.score s = .ok x ∧ Number.orderKey x = some k

theorem Tied.subset (h : r.Tied cs) (sub : kept ⊆ cs) : r.Tied kept := by
  obtain ⟨k, tied⟩ := h
  exact ⟨k, fun s hs => tied s (sub hs)⟩

theorem best_eq_ok :
    r.best cs = .ok kept
      ↔ ∃ scored, (cs.mapM fun s => do pure ((← r.score s), s)) = .ok scored
        ∧ kept = bestScored scored := by
  unfold best
  rw [Checked.bind_eq_ok]
  exact exists_congr fun scored => and_congr_right fun _ =>
    ⟨fun h => (Except.ok.inj h).symm, fun h => congrArg Except.ok h.symm⟩

/-- What is scored is the candidates, each with its score. -/
theorem scored_spec {scored : List (Float × Selection)}
    (h : (cs.mapM fun s => do pure ((← r.score s), s)) = .ok scored) :
    scored.map Prod.snd = cs ∧ ∀ p ∈ scored, r.score p.2 = .ok p.1 := by
  refine ⟨?_, ?_⟩
  · have kept : scored.map Prod.snd = cs.map id := by
      refine Checked.map_of_mapM_eq_ok h fun s _ p hp => ?_
      obtain ⟨x, -, e⟩ := Checked.bind_eq_ok.1 hp
      obtain rfl := Except.ok.inj e
      rfl
    rw [kept, List.map_id]
  · intro p hp
    obtain ⟨s, -, hs⟩ := (Checked.mem_of_mapM_eq_ok h).1 hp
    obtain ⟨x, hx, e⟩ := Checked.bind_eq_ok.1 hs
    obtain rfl := Except.ok.inj e
    exact hx

/-- The best candidates are tied. -/
theorem tied_best (h : r.best cs = .ok kept) : kept ⊆ cs ∧ r.Tied kept := by
  obtain ⟨scored, hscored, rfl⟩ := best_eq_ok.1 h
  obtain ⟨candidates, scores⟩ := scored_spec hscored
  unfold bestScored
  split
  · exact ⟨List.nil_subset _, 0, fun _ hs => absurd hs List.not_mem_nil⟩
  · next best _ =>
    refine ⟨?_, ?_⟩
    · rw [← candidates]
      exact List.map_subset _ (List.filter_sublist.subset)
    · refine ⟨best, fun s hs => ?_⟩
      obtain ⟨p, hp, rfl⟩ := List.mem_map.1 hs
      obtain ⟨member, key⟩ := List.mem_filter.1 hp
      exact ⟨p.1, scores p member, by simpa using key⟩

theorem bestKey?_of_all {keys : List (Option Int)} {k : Int} (all : ∀ o ∈ keys, o = some k)
    (some_key : keys ≠ []) : bestKey? keys = some k := by
  have e := List.eq_replicate_of_mem all
  have long : keys.length ≠ 0 := fun h => some_key (List.length_eq_zero_iff.1 h)
  rw [e]
  unfold bestKey?
  simp [List.max?_replicate, long]

/-- Of tied candidates all are the best. -/
theorem best_of_tied (h : r.Tied cs) (some_candidate : cs ≠ []) : r.best cs = .ok cs := by
  obtain ⟨k, tied⟩ := h
  obtain ⟨scored, hscored⟩ : ∃ scored,
      (cs.mapM fun s => do pure ((← r.score s), s)) = Except.ok scored := by
    refine Checked.exists_mapM_eq_ok.2 fun s hs => ?_
    obtain ⟨x, hx, -⟩ := tied s hs
    exact ⟨(x, s), Checked.bind_eq_ok.2 ⟨x, hx, rfl⟩⟩
  obtain ⟨candidates, scores⟩ := scored_spec hscored
  have keys : ∀ p ∈ scored, Number.orderKey p.1 = some k := by
    intro p hp
    obtain ⟨x, hx, key⟩ := tied p.2 (candidates ▸ List.mem_map_of_mem hp)
    rw [scores p hp] at hx
    obtain rfl := Except.ok.inj hx
    exact key
  have top : bestKey? (scored.map fun p => Number.orderKey p.1) = some k := by
    refine bestKey?_of_all ?_ ?_
    · intro o ho
      obtain ⟨p, hp, rfl⟩ := List.mem_map.1 ho
      exact keys p hp
    · intro empty
      apply some_candidate
      rw [← candidates, List.map_eq_nil_iff.1 empty, List.map_nil]
  refine best_eq_ok.2 ⟨scored, hscored, ?_⟩
  unfold bestScored
  rw [top]
  show cs = (scored.filter _).map Prod.snd
  rw [List.filter_eq_self.2 fun p hp => by simp [keys p hp], candidates]

end Scorer

-- ================================================================= rules

variable {c : ResolutionContext} {r : RankRule} {sc : Scorer} {cs : List Selection}

/-- One candidate is not ranked any more. -/
theorem rankBy_of_le (rs : List RankRule) (few : cs.length ≤ 1) : rankBy c rs cs = .ok cs := by
  cases rs with
  | nil => rw [rankBy]
  | cons r rs => rw [rankBy, if_pos few]

/-- Several candidates are narrowed by the next rule. -/
theorem rankBy_cons {rs : List RankRule} (several : ¬ cs.length ≤ 1) :
    rankBy c (r :: rs) cs
      = (do
        let scorer ← r.prepare c
        let narrowed ← (scorer.best cs).mapError .metaMissing
        rankBy c rs narrowed) := by
  rw [rankBy, if_neg several]

/-- On candidates that are tied under a rule, it can be left out. -/
theorem rankBy_filter (prepared : r.prepare c = .ok sc) (rs : List RankRule)
    (tied : sc.Tied cs) : rankBy c (rs.filter (· ≠ r)) cs = rankBy c rs cs := by
  induction rs generalizing cs with
  | nil => rfl
  | cons q rs ih =>
    by_cases few : cs.length ≤ 1
    · rw [rankBy_of_le _ few, rankBy_of_le _ few]
    · by_cases e : q = r
      · subst e
        have some_candidate : cs ≠ [] := by
          intro h
          obtain rfl := h
          exact few (Nat.zero_le _)
        rw [List.filter_cons_of_neg (by simp), ih tied, rankBy_cons few, prepared]
        show _ = ((sc.best cs).mapError .metaMissing >>= rankBy c rs)
        rw [Scorer.best_of_tied tied some_candidate]
        rfl
      · rw [List.filter_cons_of_pos (by simpa using e), rankBy_cons few, rankBy_cons few]
        cases q.prepare c with
        | error e => rfl
        | ok sc' =>
          show ((sc'.best cs).mapError SelectorError.metaMissing >>= _)
            = ((sc'.best cs).mapError SelectorError.metaMissing >>= _)
          cases narrowed : sc'.best cs with
          | error e => rfl
          | ok kept => exact ih (tied.subset (Scorer.tied_best narrowed).1)

/-- A repeated rule can be left out. -/
theorem rankBy_firstOccurrences (rs : List RankRule) (cs : List Selection) :
    rankBy c (firstOccurrences rs) cs = rankBy c rs cs := by
  induction rs generalizing cs with
  | nil => rfl
  | cons r rs ih =>
    by_cases few : cs.length ≤ 1
    · rw [rankBy_of_le _ few, rankBy_of_le _ few]
    · rw [firstOccurrences, rankBy_cons few, rankBy_cons few]
      cases prepared : r.prepare c with
      | error e => rfl
      | ok sc =>
        show ((sc.best cs).mapError SelectorError.metaMissing >>= _)
          = ((sc.best cs).mapError SelectorError.metaMissing >>= _)
        cases narrowed : sc.best cs with
        | error e => rfl
        | ok kept =>
          show rankBy c ((firstOccurrences rs).filter (· ≠ r)) kept = rankBy c rs kept
          rw [rankBy_filter prepared _ (Scorer.tied_best narrowed).2, ih]

end PartPlan
