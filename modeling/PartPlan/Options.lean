/-
Options of a compilation, from a document or from the environment.
-/
import PartPlan.Units

namespace PartPlan

/-- The options of a compilation. -/
structure Options where
  /-- The unit system of parts that do not declare one. -/
  defaultUnits : UnitSystem
  /-- Whether to point out annotations that are carried along unevaluated. -/
  dataOnlyDiagnostics : Bool
  deriving DecidableEq, Repr

namespace Options

/-- The options that hold unless something else is said. -/
def standard : Options := ⟨.mm, true⟩

instance : Inhabited Options := ⟨standard⟩

/-- The value of a flag in the environment. Blanks around it and capitals do
not matter. -/
def flag? (text : String) : Option Bool :=
  match Text.lowerAscii (Text.trim text) with
  | "1" => some true
  | "true" => some true
  | "yes" => some true
  | "on" => some true
  | "0" => some false
  | "false" => some false
  | "no" => some false
  | "off" => some false
  | _ => none

/-- The variable that names the unit system. -/
def unitsVariable : String := "PART_UNITS"

/-- The variable that turns the diagnostic about annotations on or off. -/
def diagnosticsVariable : String := "PART_DATA_ONLY_DIAGNOSTICS"

/-- The options of an environment. A variable that is missing or that has no
meaning leaves its option as it is. -/
def ofEnvironment (lookup : String → Option String) : Options where
  defaultUnits := ((lookup unitsVariable).bind UnitSystem.ofName?).getD standard.defaultUnits
  dataOnlyDiagnostics :=
    ((lookup diagnosticsVariable).bind flag?).getD standard.dataOnlyDiagnostics

def toJson (o : Options) : Json :=
  Json.record [("defaultUnits", some o.defaultUnits.toJson),
    ("dataOnlyDiagnostics", some (.bool o.dataOnlyDiagnostics))]

/-- The options a value stands for; a missing one is as in `standard`. -/
def ofJson? (v : Json) : Option Options := do
  match ← v.fields? ["defaultUnits", "dataOnlyDiagnostics"] with
  | [units, diagnostics] =>
    some ⟨← Json.defaulted standard.defaultUnits UnitSystem.ofJson? units,
      ← Json.defaulted standard.dataOnlyDiagnostics Json.bool? diagnostics⟩
  | _ => none

end Options
end PartPlan
