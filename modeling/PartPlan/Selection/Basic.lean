/-
Selections: the concrete faces, edges and solids that building a part has
produced, with what is known about each as a sparse map of metadata.
Whoever needs a field of a certain type asks for it with `Selection.require`,
so that a field that is missing or of another type is one kind of error
everywhere.
-/
import PartPlan.Selector.Basic

namespace PartPlan

/-- The types of metadata. -/
inductive MetaType where
  | bool
  | number
  | text
  | vec3
  deriving DecidableEq, Repr

def MetaType.name : MetaType → String
  | bool => "bool"
  | number => "number"
  | text => "string"
  | vec3 => "vec3"

/-- The types of metadata by the keyword that asks for each, which for texts
is not their name in messages. -/
def MetaType.choices : List (String × MetaType) :=
  [("bool", .bool), ("number", .number), ("text", .text), ("vec3", .vec3)]

def MetaType.ofJson? : Json → Option MetaType := Json.keyword? choices

/-- A vector of plain numbers. -/
structure Vec3 where
  x : Float
  y : Float
  z : Float
  deriving DecidableEq, Repr

/-- The distance between two points. -/
def Vec3.distance (a b : Vec3) : Float :=
  let dx := a.x - b.x
  let dy := a.y - b.y
  let dz := a.z - b.z
  (dx * dx + dy * dy + dz * dz).sqrt

/-- One piece of metadata. -/
inductive MetaValue where
  | bool (b : Bool)
  | number (x : Float)
  | text (s : String)
  | vec3 (v : Vec3)
  deriving DecidableEq, Repr

namespace MetaValue

/-- The type of a piece of metadata. -/
def type : MetaValue → MetaType
  | bool _ => .bool
  | number _ => .number
  | text _ => .text
  | vec3 _ => .vec3

/-- The flag, if the value is one. -/
def bool? : MetaValue → Option Bool
  | bool b => some b
  | _ => none

/-- The number, if the value is one. -/
def number? : MetaValue → Option Float
  | number x => some x
  | _ => none

/-- The text, if the value is one. -/
def text? : MetaValue → Option String
  | text s => some s
  | _ => none

/-- The vector, if the value is one. -/
def vec3? : MetaValue → Option Vec3
  | vec3 v => some v
  | _ => none

/-- A piece of metadata is written as the plain value it is, and a vector as
the list of its components. -/
def toJson : MetaValue → Json
  | bool b => .bool b
  | number x => .ofFloat x
  | text s => .str s
  | vec3 v => .arr [.ofFloat v.x, .ofFloat v.y, .ofFloat v.z]

/-- The piece of metadata a value stands for; its shape tells its type. -/
def ofJson? : Json → Option MetaValue
  | .bool b => some (.bool b)
  | .str s => some (.text s)
  | .arr [x, y, z] => do some (.vec3 ⟨← x.float?, ← y.float?, ← z.float?⟩)
  | v => .number <$> v.float?

end MetaValue

/-- The metadata keys the library knows. -/
inductive MetaKey where
  | planar
  | normal
  | area
  | centerZ
  | center
  | createdBy
  | role
  | ownerKey
  deriving DecidableEq, Repr

def MetaKey.name : MetaKey → String
  | planar => "planar"
  | normal => "normal"
  | area => "area"
  | centerZ => "centerZ"
  | center => "center"
  | createdBy => "createdBy"
  | role => "role"
  | ownerKey => "ownerKey"

/-- A face, an edge or a solid. -/
structure Selection where
  id : String
  kind : SelectionKind
  metadata : SortedMap MetaValue
  deriving DecidableEq, Repr

/-- Metadata that is missing, or there with another type. -/
structure MetaMissing where
  selection : String
  key : String
  expected : MetaType
  found : Option MetaType
  deriving DecidableEq, Repr

def MetaMissing.message (e : MetaMissing) : String :=
  "Selection " ++ e.selection ++ " has no " ++ e.expected.name ++ " metadata field '" ++ e.key
    ++ "'" ++ (match e.found with
      | none => ""
      | some t => " (found " ++ t.name ++ ")")

namespace Selection

/-- A selection without metadata. -/
def bare (id : String) (kind : SelectionKind) : Selection := ⟨id, kind, .empty⟩

/-- A selection with one more piece of metadata. -/
def withMeta (s : Selection) (key : String) (value : MetaValue) : Selection :=
  { s with metadata := s.metadata.insert key value }

/-- The piece of metadata under a key that `narrow` makes something of. -/
def require {α : Type} (s : Selection) (key : String) (expected : MetaType)
    (narrow : MetaValue → Option α) : Except MetaMissing α :=
  match (s.metadata.find? key).bind narrow with
  | some a => .ok a
  | none => .error ⟨s.id, key, expected, (s.metadata.find? key).map MetaValue.type⟩

/-- The flag under a key. -/
def requireBool (s : Selection) (key : String) : Except MetaMissing Bool :=
  s.require key .bool MetaValue.bool?

/-- The number under a key. -/
def requireNumber (s : Selection) (key : String) : Except MetaMissing Float :=
  s.require key .number MetaValue.number?

/-- The text under a key. -/
def requireText (s : Selection) (key : String) : Except MetaMissing String :=
  s.require key .text MetaValue.text?

/-- The vector under a key. -/
def requireVec3 (s : Selection) (key : String) : Except MetaMissing Vec3 :=
  s.require key .vec3 MetaValue.vec3?

/-- The output a selection belongs to, if it is known. -/
def owner? (s : Selection) : Option String :=
  (s.metadata.find? MetaKey.ownerKey.name).bind MetaValue.text?

/-- A selection is written as a record, its metadata in key order. -/
def toJson (s : Selection) : Json :=
  Json.record [("id", some (.str s.id)), ("kind", some s.kind.toJson),
    ("meta", some (Json.ofMap MetaValue.toJson s.metadata))]

def ofJson? (v : Json) : Option Selection := do
  match ← v.fields? ["id", "kind", "meta"] with
  | [id, kind, metadata] =>
    some ⟨← Json.required Json.text? id, ← Json.required SelectionKind.ofJson? kind,
      ← Json.defaulted .empty (Json.map? MetaValue.ofJson?) metadata⟩
  | _ => none

end Selection
end PartPlan
