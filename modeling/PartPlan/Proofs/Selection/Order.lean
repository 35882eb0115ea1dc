/-
Resolution does not depend on the order in which selections were produced. Each
step passes over the whole list of candidates: predicates are tested and scores
taken by a pass that fails if it fails anywhere, and the best score is the same in
whichever order the scores are compared. So a list of candidates in another order
comes out in another order, or the step fails in both cases. Where it fails first
does depend on the order; the code of the error does not.
-/
import PartPlan.Proofs.Selection.Contexts

namespace PartPlan

open Checked (Corresponds)

/-- Two errors are of one kind. They may be about different selections. -/
def SelectorError.SameCode (e e' : SelectorError) : Prop := e.code = e'.code

variable {cs cs' : List Selection}

-- ============================================================ predicates

/-- A selection, with whether it satisfies the predicates. -/
def tested (ps : List Predicate) (s : Selection) : Except MetaMissing (Bool × Selection) := do
  pure ((← allHold s ps), s)

/-- The predicates are tested on every selection before any is left out. -/
theorem satisfying_eq_mapM (ps : List Predicate) (cs : List Selection) :
    satisfying ps cs = (cs.mapM (tested ps)).map fun all => (all.filter (·.1)).map (·.2) := by
  induction cs with
  | nil => rfl
  | cons s cs ih =>
    rw [satisfying, List.mapM_cons, ih, tested]
    cases allHold s ps with
    | error e => rfl
    | ok holds =>
      cases cs.mapM (tested ps) with
      | error e => rfl
      | ok all =>
        cases holds with
        | true => rfl
        | false => rfl

/-- In another order the same selections satisfy the predicates. -/
theorem satisfying_perm (ps : List Predicate) (perm : cs.Perm cs') :
    Corresponds (fun _ _ => True) List.Perm (satisfying ps cs) (satisfying ps cs') := by
  rw [satisfying_eq_mapM, satisfying_eq_mapM]
  refine (Checked.corresponds_mapM_perm perm).map fun all all' same => ?_
  exact (same.filter _).map _

-- =============================================================== ranking

/-- The greatest key is the greatest in any order. -/
theorem bestKey?_perm {keys keys' : List (Option Int)} (perm : keys.Perm keys') :
    bestKey? keys = bestKey? keys' := by
  have members : ∀ k, k ∈ keys.filterMap id ↔ k ∈ keys'.filterMap id :=
    fun k => (perm.filterMap id).mem_iff
  unfold bestKey?
  ext best
  rw [List.max?_eq_some_iff, List.max?_eq_some_iff]
  simp only [members]

theorem bestScored_perm {scored scored' : List (Float × Selection)}
    (perm : scored.Perm scored') : (bestScored scored).Perm (bestScored scored') := by
  unfold bestScored
  rw [bestKey?_perm (perm.map fun p => Number.orderKey p.1)]
  split
  · exact List.Perm.nil
  · exact (perm.filter _).map _

/-- The candidates with the best score are the same in any order. -/
theorem Scorer.best_perm (r : Scorer) (perm : cs.Perm cs') :
    Corresponds (fun _ _ => True) List.Perm (r.best cs) (r.best cs') := by
  have scores := Checked.corresponds_mapM_perm (f := fun s => do pure ((← r.score s), s)) perm
  unfold Scorer.best
  exact scores.bind fun scored scored' same => .ok (bestScored_perm same)

-- ============================================================ resolution

/-- Metadata that is missing is missing in any order, if perhaps elsewhere. -/
theorem corresponds_metaMissing {x x' : Except MetaMissing (List Selection)}
    (h : Corresponds (fun _ _ => True) List.Perm x x') :
    Corresponds SelectorError.SameCode List.Perm (x.mapError .metaMissing)
      (x'.mapError .metaMissing) :=
  h.mapError fun _ _ _ => rfl

theorem keptByRanking_perm : KeptByRanking SelectorError.SameCode List.Perm where
  refl _ := rfl
  single x := List.Perm.refl [x]
  unique same := List.singleton_perm_singleton.1 same
  length same := same.length_eq
  ambiguous _ _ := rfl
  best r same := corresponds_metaMissing (r.best_perm same)

/-- Contexts that hold the same selections in another order give the same answers in
another order. -/
theorem askedAlike_of_perm {c c' : ResolutionContext} (names : c.named = c'.named)
    (perm : c.selections.Perm c'.selections) (s : Selector) :
    AskedAlike SelectorError.SameCode List.Perm c c' s where
  named name _ := by rw [names]
  candidates kind ps _ _ := corresponds_metaMissing (satisfying_perm ps (perm.filter _))

/-- A selector stands for the same selections in whatever order they were produced,
and for one of them only if it is the same one; if it stands for nothing, that is
for the same kind of error. -/
theorem Selector.resolution_ignores_order {c c' : ResolutionContext} (names : c.named = c'.named)
    (perm : c.selections.Perm c'.selections) (s : Selector) :
    Corresponds SelectorError.SameCode List.Perm (s.resolveAll c) (s.resolveAll c')
      ∧ Corresponds SelectorError.SameCode Eq (s.resolve c) (s.resolve c') := by
  have asked := askedAlike_of_perm names perm s
  exact ⟨asked.resolveAll keptByRanking_perm, asked.resolve keptByRanking_perm⟩

/-- A selection at a height, with an area. -/
def raised (id : String) (kind : SelectionKind) (height area : Float) : Selection :=
  ⟨id, kind, .ofList [(MetaKey.area.name, .number area), (MetaKey.centerZ.name, .number height),
    (MetaKey.center.name, .vec3 ⟨0, 0, height⟩)]⟩

/-- Two faces of one area, one whose area is not a number, and an edge. -/
def openBox : List Selection :=
  [raised "torn" .face 2 (0 / 0), raised "lid" .face 9 4, raised "rim" .edge 0 0,
    raised "floor" .face 1 4]

/-- Of the largest faces the one that is nearest to the lowest edge. -/
def lowestLargest : Selector :=
  .query .face [] [.maxArea, .closestTo (.query .edge [] [.minZ])]

theorem openBox_in_any_order :
    (lowestLargest.resolve (.ofSelections openBox)).toOption = some (raised "floor" .face 1 4)
      ∧ Corresponds SelectorError.SameCode Eq (lowestLargest.resolve (.ofSelections openBox))
        (lowestLargest.resolve (.ofSelections openBox.reverse)) := by
  have names : (ResolutionContext.ofSelections openBox).named
      = (ResolutionContext.ofSelections openBox.reverse).named := rfl
  have perm : openBox.Perm openBox.reverse := (List.reverse_perm openBox).symm
  exact ⟨by decide +kernel, (Selector.resolution_ignores_order names perm lowestLargest).2⟩

end PartPlan
