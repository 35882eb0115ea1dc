/-
What the library tells its callers besides results: reports of errors, with
a stable code and a message, and diagnostics, which never stop a build.
-/
import PartPlan.Json.Record

namespace PartPlan

/-- An error as callers see it. -/
structure ErrorReport where
  code : String
  message : String
  deriving DecidableEq, Repr

namespace ErrorReport

/-- A report on one line. -/
def text (r : ErrorReport) : String := "[" ++ r.code ++ "] " ++ r.message

def toJson (r : ErrorReport) : Json :=
  Json.record [("code", some (.str r.code)), ("message", some (.str r.message))]

end ErrorReport

/-- How serious a diagnostic is. -/
inductive Severity where
  | warning
  deriving DecidableEq, Repr

/-- A message that comes with a result. -/
structure Diagnostic where
  severity : Severity
  code : String
  message : String
  deriving DecidableEq, Repr

namespace Diagnostic

/-- A warning. -/
def warning (code message : String) : Diagnostic := ⟨.warning, code, message⟩

/-- The severities as keywords. -/
def severities : List (String × Severity) := [("warning", .warning)]

def toJson (d : Diagnostic) : Json :=
  Json.record [("severity", some (.str "warning")), ("code", some (.str d.code)),
    ("message", some (.str d.message))]

def ofJson? (v : Json) : Option Diagnostic := do
  match ← v.fields? ["severity", "code", "message"] with
  | [severity, code, message] =>
    some ⟨← Json.required (Json.keyword? severities) severity, ← Json.required Json.text? code,
      ← Json.required Json.text? message⟩
  | _ => none

end Diagnostic
end PartPlan
