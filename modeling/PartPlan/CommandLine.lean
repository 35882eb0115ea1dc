/-
The command line. It takes a part file and perhaps a file of overrides, and
answers with the build plan or a report of what is wrong, as indented JSON.
Everything it decides is decided here, from the arguments and from what is
around the program (`Surroundings`); `Main` only fetches those and prints
the answer.
-/
import PartPlan.Plan.Compile

namespace PartPlan.CommandLine

/-- How a run ends. -/
inductive Outcome where
  /-- The arguments are not one or two file names. -/
  | usage
  | planned (plan : BuildPlan)
  | refused (report : ErrorReport)

namespace Outcome

/-- The exit status of a run. -/
def exitCode : Outcome → UInt8
  | usage => 2
  | planned _ => 0
  | refused _ => 1

/-- What a run writes to standard output. -/
def output : Outcome → String
  | usage => ""
  | planned plan => plan.toJson.indented ++ "\n"
  | refused report => report.toJson.indented ++ "\n"

end Outcome

/-- How the program is called. -/
def usageText : String := "usage: part_compile <part.json> [overrides.json]"

/-- The variables of the environment that a run may ask for. -/
def variableNames : List String := [Options.unitsVariable, Options.diagnosticsVariable]

/-- What is around the program: files and variables, and a reader of JSON with
a rounding of its own, which says in its own words why it refuses a text. -/
structure Surroundings where
  /-- The text of a file, or what the system says if it cannot be read. -/
  files : String → Except String String
  environment : String → Option String
  rounding : Number.Rounding
  /-- What the reader says of a text that is no part. -/
  noPart : String → String
  /-- What the reader says of a text that holds no overrides. -/
  noOverrides : String → String

/-- The text of a file, or the reason to refuse the part. -/
def readText (around : Surroundings) (path : String) : Except ValidationError String :=
  match around.files path with
  | .ok text => .ok text
  | .error why => .error (.unreadable ("cannot read " ++ path ++ ": " ++ why))

/-- The overrides in a document. -/
def parseOverrides? (r : Number.Rounding) (text : String) : Option Overrides := do
  Json.map? Json.float? (← Json.parse? r text)

/-- The overrides in a file. -/
def readOverrides (around : Surroundings) (path : String) :
    Except ValidationError Overrides := do
  let text ← readText around path
  match parseOverrides? around.rounding text with
  | some overrides => pure overrides
  | none =>
    throw (.unreadable ("invalid overrides " ++ path ++ ": " ++ around.noOverrides text))

/-- The plan for a part file, with the overrides of a second file if one is
given. The part is read before the overrides. -/
def plan (around : Surroundings) (partPath : String) (overridesPath : Option String) :
    Except CompileError BuildPlan := do
  let text ← (readText around partPath).mapError .validation
  let part ← (Part.parse around.rounding around.noPart text).mapError .validation
  let overrides ← match overridesPath with
    | none => pure .empty
    | some path => (readOverrides around path).mapError .validation
  part.compile overrides (Options.ofEnvironment around.environment)

/-- One run of the program. -/
def run (args : List String) (around : Surroundings) : Outcome :=
  let answer (r : Except CompileError BuildPlan) : Outcome :=
    match r with
    | .ok plan => .planned plan
    | .error e => .refused e.report
  match args with
  | [part] => answer (plan around part none)
  | [part, overrides] => answer (plan around part (some overrides))
  | _ => .usage

end PartPlan.CommandLine
