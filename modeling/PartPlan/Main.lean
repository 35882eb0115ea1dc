/-
The program. It reads the files and the variables that a run may ask for,
runs `CommandLine.run` on them, and prints what that answers.
-/
import PartPlan.CommandLine

namespace PartPlan.CommandLine

/-- The text of a file, or what the system says if it cannot be read. -/
def fileText (path : String) : IO (Except String String) := do
  try
    pure (.ok (← IO.FS.readFile path))
  catch e =>
    pure (.error (toString e))

/-- The bindings of a list as a function; a name that is not bound has the
value `other`. -/
def lookupIn {α : Type} (other : α) (bindings : List (String × α)) (name : String) : α :=
  ((bindings.find? (·.1 == name)).map (·.2)).getD other

/-- Why a text is refused in place of what it should be. -/
def refusal (what text : String) : String :=
  if (Json.parse? .nearest text).isNone then "the text is not JSON"
  else "the document is not " ++ what

end PartPlan.CommandLine

open PartPlan

/-- One run: what is fetched, asked of `CommandLine.run`, and printed. -/
def main (args : List String) : IO UInt32 := do
  let files ← args.mapM fun path => do pure (path, ← CommandLine.fileText path)
  let environment ← CommandLine.variableNames.mapM fun name => do pure (name, ← IO.getEnv name)
  let outcome := CommandLine.run args {
    files := CommandLine.lookupIn (.error "no such argument") files
    environment := CommandLine.lookupIn none environment
    rounding := .nearest
    noPart := CommandLine.refusal "a part"
    noOverrides := CommandLine.refusal "an object of numbers" }
  match outcome with
  | .usage => IO.eprintln CommandLine.usageText
  | _ => pure ()
  IO.print outcome.output
  pure outcome.exitCode.toUInt32
