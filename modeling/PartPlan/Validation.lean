/-
What can be wrong with a part before its features are put in order. Each
cause has a stable code and a message; the messages are the only place where
their wording stands.
-/
import PartPlan.Number.Layout
import PartPlan.Text.Quoted
import PartPlan.Units

namespace PartPlan

/-- A reason to refuse a part. -/
inductive ValidationError where
  /-- A feature whose id is blank. -/
  | featureIdRequired (index : Nat)
  /-- NaN or an infinity. -/
  | nonFinite (place : String)
  /-- A size that is not above zero. -/
  | nonPositive (place : String) (value : Float)
  /-- A count that is no integer from one upwards. -/
  | countInvalid (place : String) (value : Float)
  /-- Too few sides or sections. -/
  | profileArity (place : String) (detail : String)
  /-- A reference to a profile where a profile has to be spelled out. -/
  | profileNested (place : String)
  /-- An axis vector of length zero. -/
  | axisZero (place : String)
  /-- A text that is no axis literal. -/
  | axisUnknown (text : String)
  /-- A parameter that no definition so far declares. -/
  | paramMissing (id : String)
  /-- A parameter that is declared twice. -/
  | paramDuplicate (id : String)
  /-- A parameter id that is no name. -/
  | paramName (id : String)
  /-- A parameter where its dimension does not fit. -/
  | paramType (id : String) (found expected : Dimension)
  /-- An override for a parameter that is not declared. -/
  | overrideUnknown (id : String)
  /-- A literal with an unknown unit. -/
  | unitUnknown (unit : String)
  /-- A literal with a unit of another dimension. -/
  | unitMismatch (unit : String) (expected : Dimension)
  /-- An angle parameter given as a bare number. -/
  | unitMissing (id : String)
  /-- A text that is no output name. -/
  | outputName (feature name : String)
  /-- A document that is no part. -/
  | unreadable (reason : String)
  deriving DecidableEq, Repr

namespace ValidationError

def code : ValidationError → String
  | featureIdRequired _ => "validation_feature_id_required"
  | nonFinite _ => "validation_scalar_non_finite"
  | nonPositive _ _ => "validation_scalar_non_positive"
  | countInvalid _ _ => "validation_count_invalid"
  | profileArity _ _ => "validation_profile_arity"
  | profileNested _ => "validation_profile_nested"
  | axisZero _ => "validation_axis_zero"
  | axisUnknown _ => "validation_axis_unknown"
  | paramMissing _ => "validation_param_missing"
  | paramDuplicate _ => "validation_param_duplicate"
  | paramName _ => "validation_param_name"
  | paramType _ _ _ => "validation_param_type"
  | overrideUnknown _ => "validation_override_unknown"
  | unitUnknown _ => "validation_unit_unknown"
  | unitMismatch _ _ => "validation_unit_mismatch"
  | unitMissing _ => "validation_unit_missing"
  | outputName _ _ => "validation_output_name"
  | unreadable _ => "validation_parse"

def message : ValidationError → String
  | featureIdRequired index => "Feature at index " ++ toString index ++ " has an empty id"
  | nonFinite place => "Non-finite value in " ++ place
  | nonPositive place value => place ++ " must be positive, got " ++ Number.messageText value
  | countInvalid place value =>
    place ++ " must be an integer >= 1, got " ++ Number.messageText value
  | profileArity place detail => place ++ ": " ++ detail
  | profileNested place => place ++ ": profile.ref cannot be declared inside a sketch"
  | axisZero place => place ++ ": axis vector has zero length"
  | axisUnknown text => "Unknown axis literal: " ++ text
  | paramMissing id => "Unknown parameter: " ++ id
  | paramDuplicate id => "Duplicate parameter: " ++ id
  | paramName id => "Invalid parameter name: " ++ Text.quoted id
  | paramType id found expected =>
    "Parameter " ++ id ++ " is a " ++ found.name ++ " but a " ++ expected.name ++ " is required"
  | overrideUnknown id => "Override for unknown parameter: " ++ id
  | unitUnknown unit => "Unknown unit: " ++ unit
  | unitMismatch unit expected => "Unit " ++ unit ++ " cannot be used for a " ++ expected.name
  | unitMissing id => "Angle parameter " ++ id ++ " needs an explicit unit (deg or rad)"
  | outputName feature name =>
    "Feature " ++ feature ++ " has invalid output name " ++ Text.quoted name
  | unreadable reason => "Invalid part JSON: " ++ reason

/-- A unit error as a reason to refuse a part. -/
def ofUnit : UnitError → ValidationError
  | .unknown unit => unitUnknown unit
  | .mismatch unit expected => unitMismatch unit expected

end ValidationError
end PartPlan
