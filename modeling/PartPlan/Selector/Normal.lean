/-
The normal form of a selector. Queries that ask the same should be written
the same, so of equal predicates, and of equal rank rules, only the first is
kept. The targets of rules are brought to normal form before rules are
compared, since two targets may become equal only then.
-/
import PartPlan.Selector.Basic

namespace PartPlan

/-- A list without the later occurrences of its members. -/
def firstOccurrences {α : Type} [DecidableEq α] : List α → List α
  | [] => []
  | a :: l => a :: (firstOccurrences l).filter (· ≠ a)

mutual
/-- A rank rule with its target in normal form. -/
def RankRule.normal : RankRule → RankRule
  | .closestTo target => .closestTo target.normal
  | .maxArea => .maxArea
  | .minZ => .minZ
  | .maxZ => .maxZ

/-- The normal form of a selector. A named output is in normal form. -/
def Selector.normal : Selector → Selector
  | .named name => .named name
  | .query kind ps rs => .query kind (firstOccurrences ps) (firstOccurrences (normalRules rs))

/-- Rank rules with their targets in normal form, repetitions included. -/
def normalRules : List RankRule → List RankRule
  | [] => []
  | r :: rs => r.normal :: normalRules rs
end

end PartPlan
