/-
Parts: the unit of compilation. A part has parameters and features, and may
carry annotations (constraints, assertions, tolerances) that the library
keeps as they are and does not evaluate. Normalization evaluates the
parameters and brings every feature to normal form.
-/
import PartPlan.Feature.Normal
import PartPlan.Json.Reader
import PartPlan.Options
import PartPlan.Report

namespace PartPlan

/-- A part as its author gives it. -/
structure Part where
  id : String
  units : Option UnitSystem
  params : List ParamDef
  /-- The features in the order of declaration. -/
  features : List Feature
  constraints : List Json
  assertions : List Json
  /-- Tolerance annotations. -/
  fti : Option Json

namespace Part

/-- Whether a part carries annotations that are not evaluated. -/
def hasAnnotations (p : Part) : Bool :=
  !p.constraints.isEmpty || !p.assertions.isEmpty || p.fti.isSome

-- =============================================================== as JSON

/-- A part is written as a record; what it does not have is left out. -/
def toJson (p : Part) : Json :=
  Json.record [("id", some (.str p.id)), ("units", p.units.map UnitSystem.toJson),
    ("params", Json.nonEmpty (p.params.map ParamDef.toJson)),
    ("features", some (.arr (p.features.map Feature.toJson))),
    ("constraints", Json.nonEmpty p.constraints), ("assertions", Json.nonEmpty p.assertions),
    ("fti", p.fti)]

/-- An annotation: any value, kept with its members in key order. -/
def annotation? (v : Json) : Option Json := v.whole?.map Json.canonical

def ofJson? (v : Json) : Option Part := do
  match ← v.fields? ["id", "units", "params", "features", "constraints", "assertions", "fti"] with
  | [id, units, params, features, constraints, assertions, fti] =>
    some {
      id := ← Json.required Json.text? id
      units := ← Json.optional UnitSystem.ofJson? units
      params := ← Json.defaulted [] (Json.list? ParamDef.ofJson?) params
      features := ← Json.required (Json.list? Feature.ofJson?) features
      constraints := ← Json.defaulted [] (Json.list? annotation?) constraints
      assertions := ← Json.defaulted [] (Json.list? annotation?) assertions
      fti := ← Json.optional annotation? fti }
  | _ => none

/-- The part a text stands for, to a reader that rounds numbers as `r` does and
says `refusal text` of a text that it refuses. -/
def parse (r : Number.Rounding) (refusal : String → String) (text : String) :
    Except ValidationError Part :=
  match (Json.parse? r text).bind ofJson? with
  | some p => .ok p
  | none => .error (.unreadable (refusal text))

end Part

-- ========================================================= normalization

/-- A part with its parameters evaluated and its features in normal form. -/
structure NormalPart where
  partId : String
  units : UnitSystem
  params : ParamTable
  features : List Feature
  diagnostics : List Diagnostic

namespace Part

/-- The unit system of a part. -/
def effectiveUnits (p : Part) (options : Options) : UnitSystem :=
  p.units.getD options.defaultUnits

/-- The warning that annotations are not evaluated. -/
def annotationWarning (p : Part) : Diagnostic :=
  .warning "annotations_data_only"
    ("Part " ++ p.id ++ " carries " ++ toString p.constraints.length ++ " constraint(s), "
      ++ toString p.assertions.length ++ " assertion(s)"
      ++ (if p.fti.isSome then " and FTI data" else "")
      ++ "; these are data only and are not evaluated")

/-- Features in normal form, each with an id that is not blank. -/
def normalFeatures (table : ParamTable) (features : List Feature) :
    Except ValidationError (List Feature) :=
  features.zipIdx.mapM fun (f, i) =>
    if Text.isBlankText f.id then .error (.featureIdRequired i) else f.normal table

/-- A part in normal form. -/
def normal (p : Part) (overrides : Overrides) (options : Options) :
    Except ValidationError NormalPart := do
  let units := p.effectiveUnits options
  let params ← ParamTable.build p.params overrides units
  let features ← normalFeatures params p.features
  let diagnostics :=
    if options.dataOnlyDiagnostics && p.hasAnnotations then [p.annotationWarning] else []
  pure ⟨p.id, units, params, features, diagnostics⟩

end Part
end PartPlan
