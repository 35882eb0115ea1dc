/-
Units and dimensions. A part measures its lengths in one unit system, angles
are in degrees and counts have no unit. A literal may carry a unit of its
own; `convert` says what number it then is in the part.
-/
import PartPlan.Json.Record
import PartPlan.Text.Blank

namespace PartPlan

/-- The length unit of a part. -/
inductive UnitSystem where
  | mm
  | cm
  | m
  | inch
  deriving DecidableEq, Repr, Inhabited

namespace UnitSystem

def name : UnitSystem → String
  | mm => "mm"
  | cm => "cm"
  | m => "m"
  | inch => "in"

def all : List UnitSystem := [mm, cm, m, inch]

/-- The unit system a text names. Blanks around the name and capitals do not
matter, and the inch has a second name. -/
def ofName? (s : String) : Option UnitSystem :=
  match Text.lowerAscii (Text.trim s) with
  | "mm" => some mm
  | "cm" => some cm
  | "m" => some m
  | "in" => some inch
  | "inch" => some inch
  | _ => none

/-- How many millimetres one unit is. -/
def millimetres : UnitSystem → Float
  | mm => 1.0
  | cm => 10.0
  | m => 1000.0
  | inch => 25.4

def choices : List (String × UnitSystem) := all.map fun u => (u.name, u)

def toJson (u : UnitSystem) : Json := .str u.name

def ofJson? : Json → Option UnitSystem := Json.keyword? choices

end UnitSystem

/-- What a scalar measures. -/
inductive Dimension where
  | length
  | angle
  | count
  deriving DecidableEq, Repr, Inhabited

namespace Dimension

def name : Dimension → String
  | length => "length"
  | angle => "angle"
  | count => "count"

def all : List Dimension := [length, angle, count]

/-- Whether a parameter of dimension `d` may stand where `expected` is
required: counts are factors and stand anywhere. -/
def usableAs (d expected : Dimension) : Bool := d == expected || d == count

def choices : List (String × Dimension) := all.map fun d => (d.name, d)

def toJson (d : Dimension) : Json := .str d.name

def ofJson? : Json → Option Dimension := Json.keyword? choices

end Dimension

-- ====================================================== units of literals

/-- A unit that a literal may carry. -/
inductive LiteralUnit where
  | length (system : UnitSystem)
  | degrees
  | radians
  deriving DecidableEq, Repr

namespace LiteralUnit

/-- The unit a text names. Angle units are written in small letters, and
length units as unit systems are. -/
def ofName? (s : String) : Option LiteralUnit :=
  match Text.trim s with
  | "deg" => some degrees
  | "rad" => some radians
  | _ => (UnitSystem.ofName? s).map length

/-- The dimension a unit measures. -/
def dimension : LiteralUnit → Dimension
  | length _ => .length
  | degrees => .angle
  | radians => .angle

end LiteralUnit

/-- Why a literal has no value where it stands. -/
inductive UnitError where
  | unknown (unit : String)
  | mismatch (unit : String) (expected : Dimension)
  deriving DecidableEq, Repr

/-- Degrees in a radian. -/
def degreesPerRadian : Float := 57.29577951308232

/-- The number a literal is in a part: a length in the unit system of the
part, an angle in degrees, and without a unit the number as it stands. -/
def convert (value : Float) (unit : Option String) (expected : Dimension) (system : UnitSystem) :
    Except UnitError Float :=
  match unit with
  | none => .ok value
  | some name =>
    match LiteralUnit.ofName? name with
    | none => .error (.unknown name)
    | some u =>
      match expected, u with
      | .length, .length own => .ok (value * own.millimetres / system.millimetres)
      | .angle, .degrees => .ok value
      | .angle, .radians => .ok (value * degreesPerRadian)
      | _, _ => .error (.mismatch name expected)

end PartPlan
