/-
Evaluation of scalars. A scalar is evaluated for an expected dimension, which
goes unchanged to every part of an expression: each literal must have a unit
of that dimension or none, and each parameter must have that dimension or be
a count. Operands are evaluated from left to right and the first error is
the answer. The arithmetic itself never fails; only `ParamTable.evaluate`
refuses a result that is no finite number.
-/
import PartPlan.Scalar.Basic
import PartPlan.Validation

namespace PartPlan

/-- An evaluated parameter. -/
structure ParamValue where
  dimension : Dimension
  value : Float
  deriving DecidableEq, Repr

/-- The evaluated parameters of a part and its unit system. -/
structure ParamTable where
  units : UnitSystem
  values : SortedMap ParamValue
  deriving DecidableEq, Repr

/-- The table without parameters. -/
def ParamTable.empty (units : UnitSystem) : ParamTable := ⟨units, .empty⟩

namespace Scalar

/-- The number a parameter stands for where `expected` is required. -/
def evalParam (table : ParamTable) (expected : Dimension) (id : String) :
    Except ValidationError Float :=
  match table.values.find? id with
  | none => .error (.paramMissing id)
  | some p =>
    if p.dimension.usableAs expected then .ok p.value
    else .error (.paramType id p.dimension expected)

/-- The number a scalar is. It may be NaN or infinite. -/
def eval (table : ParamTable) (expected : Dimension) : Scalar → Except ValidationError Float
  | value x => .ok x
  | literal x unit => (convert x unit expected table.units).mapError .ofUnit
  | param id => evalParam table expected id
  | binary op left right => do
    let l ← left.eval table expected
    let r ← right.eval table expected
    pure (op.apply l r)
  | neg operand => do
    let x ← operand.eval table expected
    pure (-x)

end Scalar

/-- The finite number a scalar is. `place` names where it stands. -/
def ParamTable.evaluate (table : ParamTable) (scalar : Scalar) (expected : Dimension)
    (place : String) : Except ValidationError Float := do
  let x ← scalar.eval table expected
  if x.isFinite then pure x else throw (.nonFinite place)

end PartPlan
