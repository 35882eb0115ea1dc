/-
Parameters of a part. Definitions are evaluated in their order, so that each
may use those before it; an override takes the place of a definition, whose
scalar is then not looked at.
-/
import PartPlan.Scalar.Eval
import PartPlan.Text.Name

namespace PartPlan

/-- The definition of a parameter. -/
structure ParamDef where
  id : String
  dimension : Dimension
  value : Scalar
  deriving DecidableEq, Repr

/-- Numbers given by the caller for parameters: lengths in part units and
angles in degrees. -/
abbrev Overrides := SortedMap Float

namespace ParamDef

/-- The number of a definition: the override if there is one, and otherwise
its scalar. An angle must not be a bare number. -/
def resolve (d : ParamDef) (overrides : Overrides) (table : ParamTable) :
    Except ValidationError Float :=
  match overrides.find? d.id with
  | some x =>
    if x.isFinite then .ok x
    else .error (.nonFinite ("override for parameter '" ++ d.id ++ "'"))
  | none =>
    if d.dimension = .angle ∧ d.value.isUnitless then .error (.unitMissing d.id)
    else table.evaluate d.value d.dimension ("parameter '" ++ d.id ++ "'")

end ParamDef

namespace ParamTable

/-- A table with one more definition. -/
def define (overrides : Overrides) (table : ParamTable) (d : ParamDef) :
    Except ValidationError ParamTable := do
  if !Text.isParamName d.id then throw (.paramName d.id)
  if table.values.contains d.id then throw (.paramDuplicate d.id)
  let x ← d.resolve overrides table
  pure { table with values := table.values.insert d.id ⟨d.dimension, x⟩ }

/-- The table of a list of definitions. Every override must belong to one of
them, and the first in key order that does not is reported. -/
def build (defs : List ParamDef) (overrides : Overrides) (units : UnitSystem) :
    Except ValidationError ParamTable := do
  let table ← defs.foldlM (define overrides) (.empty units)
  match overrides.keys.find? fun id => !table.values.contains id with
  | some id => throw (.overrideUnknown id)
  | none => pure table

end ParamTable

-- =============================================================== as JSON

namespace ParamDef

def toJson (d : ParamDef) : Json :=
  Json.record [("id", some (.str d.id)), ("type", some d.dimension.toJson),
    ("value", some d.value.toJson)]

def ofJson? (v : Json) : Option ParamDef := do
  match ← v.fields? ["id", "type", "value"] with
  | [id, dimension, value] =>
    some ⟨← Json.required Json.text? id, ← Json.required Dimension.ofJson? dimension,
      ← Json.required Scalar.ofJson? value⟩
  | _ => none

end ParamDef

namespace ParamValue

def toJson (p : ParamValue) : Json :=
  Json.record [("kind", some p.dimension.toJson), ("value", some (.ofFloat p.value))]

def ofJson? (v : Json) : Option ParamValue := do
  match ← v.fields? ["kind", "value"] with
  | [dimension, value] =>
    some ⟨← Json.required Dimension.ofJson? dimension, ← Json.required Json.float? value⟩
  | _ => none

end ParamValue

namespace ParamTable

/-- A table is written as a record, its parameters in key order. -/
def toJson (t : ParamTable) : Json :=
  Json.record [("units", some t.units.toJson), ("values", some (Json.ofMap ParamValue.toJson t.values))]

def ofJson? (v : Json) : Option ParamTable := do
  match ← v.fields? ["units", "values"] with
  | [units, values] =>
    some ⟨← Json.required UnitSystem.ofJson? units,
      ← Json.required (Json.map? ParamValue.ofJson?) values⟩
  | _ => none

end ParamTable
end PartPlan
