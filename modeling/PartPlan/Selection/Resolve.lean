/-
Resolution: which selections a selector stands for in a context.

A named output stands for the selection registered under it. A query stands
for the selections of its kind that satisfy every predicate, in the order in
which they were produced; predicates are tested from left to right up to the
first that fails. Rank rules then narrow the candidates one after another,
each keeping all that share the best score, until one is left. Scores that
are NaN are never the best.
-/
import PartPlan.Number.Exact
import PartPlan.Feature.Basic
import PartPlan.Selection.Context

namespace PartPlan

/-- Why a selector stands for nothing. -/
inductive SelectorError where
  /-- An output name nothing is registered under. -/
  | namedMissing (name : String)
  /-- No selection of the kind satisfies the predicates. -/
  | empty (selector : String) (kind : SelectionKind)
  /-- Ranking has left nothing. -/
  | emptyAfterRank (selector : String)
  /-- Several candidates where one is needed. -/
  | ambiguous (selector : String) (candidates : List String)
  /-- Metadata that a predicate or a rule needs is missing. -/
  | metaMissing (cause : MetaMissing)
  /-- The selector of a slot of a feature stands for nothing. -/
  | inSlot (feature slot : String) (cause : SelectorError)
  deriving Repr

namespace SelectorError

/-- The stable code of an error; that of the cause for an error in a slot. -/
def code : SelectorError → String
  | namedMissing _ => "selector_named_missing"
  | empty _ _ => "selector_empty"
  | emptyAfterRank _ => "selector_empty_after_rank"
  | ambiguous _ _ => "selector_ambiguous"
  | metaMissing _ => "selector_meta_missing"
  | inSlot _ _ cause => cause.code

def message : SelectorError → String
  | namedMissing name => "Named output not found: " ++ name
  | empty selector kind => "Selector " ++ selector ++ " matched 0 " ++ kind.name ++ " candidates"
  | emptyAfterRank selector => "Selector " ++ selector ++ " has no candidates left after ranking"
  | ambiguous selector candidates =>
    "Selector " ++ selector ++ " is ambiguous: " ++ toString candidates.length
      ++ " candidates remain (" ++ String.intercalate ", " candidates ++ ")"
  | metaMissing cause => cause.message
  | inSlot feature slot cause => feature ++ "." ++ slot ++ ": " ++ cause.message

end SelectorError

-- ============================================================ predicates

/-- Whether a selection satisfies a predicate. -/
def Predicate.holds (p : Predicate) (s : Selection) : Except MetaMissing Bool :=
  match p with
  | planar => s.requireBool MetaKey.planar.name
  | normal d => do
    let text ← s.requireText MetaKey.normal.name
    pure (Direction.ofLiteral? text == some d)
  | createdBy feature => do
    let text ← s.requireText MetaKey.createdBy.name
    pure (text == feature)
  | role value => do
    let text ← s.requireText MetaKey.role.name
    pure (text == value)

/-- Whether a selection satisfies every predicate. -/
def allHold (s : Selection) : List Predicate → Except MetaMissing Bool
  | [] => .ok true
  | p :: ps => do
    if ← p.holds s then allHold s ps else pure false

/-- The selections that satisfy every predicate. -/
def satisfying (ps : List Predicate) : List Selection → Except MetaMissing (List Selection)
  | [] => .ok []
  | s :: rest => do
    let ok ← allHold s ps
    let others ← satisfying ps rest
    pure (if ok then s :: others else others)

-- =============================================================== ranking

/-- A rank rule with its target resolved. -/
inductive Scorer where
  | maxArea
  | minZ
  | maxZ
  | closestTo (center : Vec3)
  deriving DecidableEq, Repr

/-- The score of a candidate; the higher the better. -/
def Scorer.score (r : Scorer) (s : Selection) : Except MetaMissing Float :=
  match r with
  | maxArea => s.requireNumber MetaKey.area.name
  | minZ => do pure (-(← s.requireNumber MetaKey.centerZ.name))
  | maxZ => s.requireNumber MetaKey.centerZ.name
  | closestTo center => do pure (-((← s.requireVec3 MetaKey.center.name).distance center))

/-- The greatest of some order keys, NaN having none. -/
def bestKey? (keys : List (Option Int)) : Option Int := (keys.filterMap id).max?

/-- The candidates that share the best score. None of them has a NaN score,
and if all scores are NaN nothing is left. -/
def bestScored (scored : List (Float × Selection)) : List Selection :=
  match bestKey? (scored.map fun p => Number.orderKey p.1) with
  | none => []
  | some best => (scored.filter fun p => Number.orderKey p.1 == some best).map (·.2)

/-- The candidates that share the best score of a rule. -/
def Scorer.best (r : Scorer) (candidates : List Selection) : Except MetaMissing (List Selection) := do
  let scored ← candidates.mapM fun s => do pure ((← r.score s), s)
  pure (bestScored scored)

-- ============================================================ resolution

/-- The one selection of a list, described by `s`. -/
def exactlyOne (s : Selector) : List Selection → Except SelectorError Selection
  | [] => .error (.emptyAfterRank s.description)
  | [x] => .ok x
  | xs => .error (.ambiguous s.description (xs.map Selection.id))

mutual
/-- The selections a selector stands for. -/
def Selector.resolveAll (c : ResolutionContext) : Selector → Except SelectorError (List Selection)
  | .named name =>
    match c.named.find? name with
    | some s => .ok [s]
    | none => .error (.namedMissing name)
  | .query kind ps rs => do
    let candidates ← (satisfying ps (c.selections.filter (·.kind == kind))).mapError .metaMissing
    if candidates.isEmpty then throw (.empty (Selector.query kind ps rs).description kind)
    let ranked ← rankBy c rs candidates
    if ranked.isEmpty then throw (.emptyAfterRank (Selector.query kind ps rs).description)
    pure ranked

/-- A rank rule with its target resolved to the centre of one selection. -/
def RankRule.prepare (c : ResolutionContext) : RankRule → Except SelectorError Scorer
  | .maxArea => .ok .maxArea
  | .minZ => .ok .minZ
  | .maxZ => .ok .maxZ
  | .closestTo target => do
    let found ← target.resolveAll c
    let reference ← exactlyOne target found
    let center ← (reference.requireVec3 MetaKey.center.name).mapError .metaMissing
    pure (.closestTo center)

/-- Candidates narrowed by rules one after another, until one is left. -/
def rankBy (c : ResolutionContext) : List RankRule → List Selection →
    Except SelectorError (List Selection)
  | [], candidates => .ok candidates
  | r :: rs, candidates =>
    if candidates.length ≤ 1 then .ok candidates
    else do
      let scorer ← r.prepare c
      let narrowed ← (scorer.best candidates).mapError .metaMissing
      rankBy c rs narrowed
end

/-- The one selection a selector stands for. -/
def Selector.resolve (c : ResolutionContext) (s : Selector) : Except SelectorError Selection := do
  let found ← s.resolveAll c
  exactlyOne s found

/-- The selections of a selector slot: one or several, as the slot asks. -/
def SelectorSlot.resolve (c : ResolutionContext) (slot : SelectorSlot) :
    Except SelectorError (List Selection) :=
  match slot.cardinality with
  | .one => do pure [← slot.selector.resolve c]
  | .many => slot.selector.resolveAll c

/-- The selections of every selector slot of a feature, by slot name. -/
def Feature.resolveSelectors (c : ResolutionContext) (f : Feature) :
    Except SelectorError (SortedMap (List Selection)) := do
  let found ← f.selectorSlots.mapM fun slot => do
    let selections ← (slot.resolve c).mapError (.inSlot f.id slot.name)
    pure (slot.name, selections)
  pure (.ofList found)

end PartPlan
