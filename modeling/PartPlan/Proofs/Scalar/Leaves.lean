/-
A scalar by its leaves. Whether a scalar has a number where a dimension is expected is
said by its leaves one by one: each parameter in it has to be usable there, and each
unit has to measure that dimension (`Scalar.Fits`). The operators neither demand
anything nor make up for anything, and the number is what they come to on the numbers of
the leaves (`Scalar.compute`), so evaluation accepts exactly the scalars that fit
(`Scalar.accepts_eval`).

A count has no unit. So what fits where a count is expected fits anywhere.
-/
import PartPlan.Proofs.Params.Dependence

namespace PartPlan

-- ================================================================== leaves

/-- A text names a unit of a dimension. -/
def Dimension.HasUnit (d : Dimension) (unit : String) : Prop :=
  ∃ u, LiteralUnit.ofName? unit = some u ∧ u.dimension = d

/-- The number that a literal with a unit is in a part. -/
def LiteralUnit.inPart (system : UnitSystem) : LiteralUnit → Float → Float
  | length own, x => x * own.millimetres / system.millimetres
  | degrees, x => x
  | radians, x => x * degreesPerRadian

/-- The number that a literal is in a part. -/
def literalNumber (system : UnitSystem) (x : Float) (unit : Option String) : Float :=
  (unit.bind LiteralUnit.ofName?).elim x fun u => u.inPart system x

/-- A count has no unit. -/
theorem Dimension.not_hasUnit_count (unit : String) : ¬ Dimension.count.HasUnit unit := by
  rintro ⟨u, -, counts⟩
  cases u <;> cases counts

theorem Dimension.usableAs_iff {own expected : Dimension} :
    own.usableAs expected = true ↔ own = expected ∨ own = .count := by
  simp [usableAs]

/-- A literal with a unit has a number where the dimension of the unit is expected. -/
theorem convert_of_unit {name : String} {u : LiteralUnit} (named : LiteralUnit.ofName? name = some u)
    (x : Float) (expected : Dimension) (system : UnitSystem) :
    convert x (some name) expected system
      = if u.dimension = expected then .ok (u.inPart system x)
        else .error (.mismatch name expected) := by
  rw [convert, named]
  cases u <;> cases expected <;> rfl

/-- A literal has a number if it has no unit, or one of the dimension. -/
theorem accepts_convert (x : Float) (unit : Option String) (expected : Dimension)
    (system : UnitSystem) :
    Checked.Accepts (convert x unit expected system) (∀ u ∈ unit, expected.HasUnit u)
      (literalNumber system x unit) := by
  cases unit with
  | none => exact (Checked.Accepts.ok x).congr (by simp)
  | some name =>
    rw [literalNumber, Option.bind_some]
    cases named : LiteralUnit.ofName? name with
    | none =>
      rw [convert, named]
      exact (Checked.Accepts.error _ _).congr (by simp [Dimension.HasUnit, named])
    | some u =>
      rw [convert_of_unit named]
      have measures : (∀ unit ∈ some name, expected.HasUnit unit) ↔ u.dimension = expected := by
        simp [Dimension.HasUnit, named]
      split
      · next same => exact (Checked.Accepts.ok _).congr (iff_of_true trivial (measures.2 same))
      · next other => exact (Checked.Accepts.error _ _).congr (iff_of_false id (other ∘ measures.1))

namespace Scalar

/-- The units that stand in a scalar. -/
def units : Scalar → List String
  | value _ => []
  | literal _ unit => unit.toList
  | param _ => []
  | binary _ left right => left.units ++ right.units
  | neg operand => operand.units

/-- The number of a scalar, given those of the parameters. -/
def compute (system : UnitSystem) (number : String → Float) : Scalar → Float
  | value x => x
  | literal x unit => literalNumber system x unit
  | param id => number id
  | binary op left right => op.apply (left.compute system number) (right.compute system number)
  | neg operand => -(operand.compute system number)

/-- Every parameter in a scalar can be used where a dimension is expected, and every
unit measures it. -/
structure Fits (table : ParamTable) (expected : Dimension) (s : Scalar) : Prop where
  params : ∀ id ∈ s.params, ∃ p, table.values.find? id = some p
    ∧ p.dimension.usableAs expected = true
  units : ∀ unit ∈ s.units, expected.HasUnit unit

end Scalar

/-- The number that a table has under an id. -/
def ParamTable.number (table : ParamTable) (id : String) : Float :=
  (table.values.find? id).elim 0 ParamValue.value

namespace Scalar

variable {table : ParamTable} {expected : Dimension} {s : Scalar}

theorem fits_binary {op : Operator} {left right : Scalar} :
    (binary op left right).Fits table expected
      ↔ left.Fits table expected ∧ right.Fits table expected := by
  constructor
  · rintro ⟨params, units⟩
    obtain ⟨pl, pr⟩ := List.forall_mem_append.1 params
    obtain ⟨ul, ur⟩ := List.forall_mem_append.1 units
    exact ⟨⟨pl, ul⟩, pr, ur⟩
  · rintro ⟨⟨pl, ul⟩, pr, ur⟩
    exact ⟨List.forall_mem_append.2 ⟨pl, pr⟩, List.forall_mem_append.2 ⟨ul, ur⟩⟩

theorem fits_neg {operand : Scalar} :
    (neg operand).Fits table expected ↔ operand.Fits table expected :=
  ⟨fun h => ⟨h.params, h.units⟩, fun h => ⟨h.params, h.units⟩⟩

theorem accepts_evalParam (table : ParamTable) (expected : Dimension) (id : String) :
    Checked.Accepts (evalParam table expected id) ((param id).Fits table expected)
      (table.number id) := by
  have demand : (param id).Fits table expected
      ↔ ∃ p, table.values.find? id = some p ∧ p.dimension.usableAs expected = true := by
    refine ⟨fun h => h.params id List.mem_cons_self, fun h => ⟨fun id' stands => ?_, ?_⟩⟩
    · rw [List.mem_singleton.1 stands]
      exact h
    · exact fun _ stands => absurd stands List.not_mem_nil
  rw [evalParam, ParamTable.number]
  cases bound : table.values.find? id with
  | none => exact (Checked.Accepts.error _ _).congr (by simp [demand, bound])
  | some p =>
    by_cases usable : p.dimension.usableAs expected = true
    · simp only [usable, if_true]
      exact (Checked.Accepts.ok _).congr (by simp [demand, bound, usable])
    · simp only [usable]
      exact (Checked.Accepts.error _ _).congr (by simp [demand, bound, usable])

/-- A scalar has a number exactly if its leaves fit, and it is what the operators come
to on the leaves. -/
theorem accepts_eval (table : ParamTable) (expected : Dimension) (s : Scalar) :
    Checked.Accepts (s.eval table expected) (s.Fits table expected)
      (s.compute table.units table.number) := by
  induction s with
  | value x =>
    refine (Checked.Accepts.ok x).congr (iff_of_true trivial ⟨?_, ?_⟩)
    · exact fun _ stands => absurd stands List.not_mem_nil
    · exact fun _ stands => absurd stands List.not_mem_nil
  | literal x unit =>
    refine ((accepts_convert x unit expected table.units).mapError _).congr ⟨fun h => ⟨?_, ?_⟩, ?_⟩
    · exact fun _ stands => absurd stands List.not_mem_nil
    · exact fun u stands => h u (Option.mem_toList.1 stands)
    · exact fun h u stands => h.units u (Option.mem_toList.2 stands)
  | param id => exact accepts_evalParam table expected id
  | binary op left right ihl ihr =>
    exact (ihl.bind fun _ => ihr.bind_ok _).congr fits_binary.symm
  | neg operand ih => exact (ih.bind_ok _).congr fits_neg.symm

theorem eval_eq_ok {x : Float} :
    s.eval table expected = .ok x
      ↔ s.Fits table expected ∧ x = s.compute table.units table.number :=
  accepts_eval table expected s x

/-- What fits as a count fits as anything. -/
theorem Fits.of_count (h : s.Fits table .count) (expected : Dimension) :
    s.Fits table expected := by
  refine ⟨fun id stands => ?_, fun unit stands => ?_⟩
  · obtain ⟨p, bound, usable⟩ := h.params id stands
    have counts : p.dimension = .count := or_self_iff.1 (Dimension.usableAs_iff.1 usable)
    exact ⟨p, bound, Dimension.usableAs_iff.2 (.inr counts)⟩
  · exact absurd (h.units unit stands) (Dimension.not_hasUnit_count unit)

/-- What fits some dimension that is usable where another is expected fits there. -/
theorem Fits.of_usable {own : Dimension} (h : s.Fits table own)
    (usable : own.usableAs expected = true) : s.Fits table expected := by
  rcases Dimension.usableAs_iff.1 usable with rfl | rfl
  · exact h
  · exact h.of_count expected

end Scalar
end PartPlan
