/-
Slots: the fields of a feature. A feature kind is a list of named slots, each
of a type that says what it holds (a size, a point, a selector, an output
name …) and how it behaves; everything the library does with a feature, from
reading to hashing, is done slot by slot, so each rule is stated once for
its slot type instead of once for each of the feature kinds.
-/
import PartPlan.Profile
import PartPlan.Selector.Basic

namespace PartPlan

/-- A boolean combination of solids. -/
inductive BooleanOp where
  | union
  | subtract
  | intersect
  deriving DecidableEq, Repr

namespace BooleanOp

def name : BooleanOp → String
  | union => "union"
  | subtract => "subtract"
  | intersect => "intersect"

def all : List BooleanOp := [union, subtract, intersect]

def choices : List (String × BooleanOp) := all.map fun o => (o.name, o)

end BooleanOp

/-- How many selections a selector stands for when a feature is built. -/
inductive Cardinality where
  | one
  | many
  deriving DecidableEq, Repr

/-- What a slot holds. -/
inductive SlotType where
  /-- A principal direction. -/
  | direction
  | axis
  /-- Any length. -/
  | length
  /-- A length above zero. -/
  | size
  /-- An integer from one upwards. -/
  | count
  | point2
  | point3
  | depth
  | sweep
  | operation
  /-- The profile a feature works on. -/
  | profile
  /-- The profiles of a loft, two or more. -/
  | sections
  /-- The profiles a sketch declares. -/
  | declarations
  /-- The geometry a feature works on. -/
  | geometry (c : Cardinality)
  /-- The layout that replicates a feature. -/
  | pattern
  /-- The name of the produced output. -/
  | output
  deriving DecidableEq, Repr

namespace SlotType

/-- The values of a slot type. -/
abbrev Value : SlotType → Type
  | direction => Direction
  | axis => Axis
  | length => Scalar
  | size => Scalar
  | count => Scalar
  | point2 => Point2
  | point3 => Point3
  | depth => Depth
  | sweep => Sweep
  | operation => BooleanOp
  | profile => Profile
  | sections => List Profile
  | declarations => List NamedProfile
  | geometry _ => Selector
  | pattern => PatternRef
  | output => String

instance decEqValue : (t : SlotType) → DecidableEq t.Value
  | direction => inferInstanceAs (DecidableEq Direction)
  | axis => inferInstanceAs (DecidableEq Axis)
  | length => inferInstanceAs (DecidableEq Scalar)
  | size => inferInstanceAs (DecidableEq Scalar)
  | count => inferInstanceAs (DecidableEq Scalar)
  | point2 => inferInstanceAs (DecidableEq Point2)
  | point3 => inferInstanceAs (DecidableEq Point3)
  | depth => inferInstanceAs (DecidableEq Depth)
  | sweep => inferInstanceAs (DecidableEq Sweep)
  | operation => inferInstanceAs (DecidableEq BooleanOp)
  | profile => inferInstanceAs (DecidableEq Profile)
  | sections => inferInstanceAs (DecidableEq (List Profile))
  | declarations => inferInstanceAs (DecidableEq (List NamedProfile))
  | geometry _ => inferInstanceAs (DecidableEq Selector)
  | pattern => inferInstanceAs (DecidableEq PatternRef)
  | output => inferInstanceAs (DecidableEq String)

def toJson : (t : SlotType) → t.Value → Json
  | direction, v => Direction.toJson v
  | axis, v => Axis.toJson v
  | length, v => Scalar.toJson v
  | size, v => Scalar.toJson v
  | count, v => Scalar.toJson v
  | point2, v => Point2.toJson v
  | point3, v => Point3.toJson v
  | depth, v => Depth.toJson v
  | sweep, v => Sweep.toJson v
  | operation, v => .str (BooleanOp.name v)
  | profile, v => Profile.toJson v
  | sections, v => .arr (List.map Profile.toJson v)
  | declarations, v => .arr (List.map NamedProfile.toJson v)
  | geometry _, v => Selector.toJson v
  | pattern, v => PatternRef.toJson v
  | output, v => .str v

def ofReadable? : (t : SlotType) → Json → Option t.Value
  | direction => Direction.ofJson?
  | axis => Axis.ofReadable?
  | length => Scalar.ofReadable?
  | size => Scalar.ofReadable?
  | count => Scalar.ofReadable?
  | point2 => Point2.ofReadable?
  | point3 => Point3.ofReadable?
  | depth => Depth.ofReadable?
  | sweep => Sweep.ofReadable?
  | operation => Json.innerKeyword? BooleanOp.choices
  | profile => Profile.ofReadable? .namedOrNumbered
  | sections => Json.list? (Profile.ofReadable? .namedOrNumbered)
  | declarations => Json.list? NamedProfile.ofReadable?
  | geometry _ => Selector.ofReadable? .namedOrNumbered
  | pattern => PatternRef.ofReadable? .namedOrNumbered
  | output => Json.text?

end SlotType

-- ================================================================ slots

/-- What it means that a slot is left out. -/
inductive Presence (t : SlotType) where
  /-- It must not be left out. -/
  | required
  /-- It is empty then. -/
  | optional
  /-- It holds this value then. -/
  | defaulted (value : t.Value)

/-- A named field of a feature kind. -/
structure Slot where
  name : String
  type : SlotType
  presence : Presence type

namespace Slot

/-- What a slot holds in a feature. -/
abbrev Value (s : Slot) : Type :=
  match s.presence with
  | .optional => Option s.type.Value
  | _ => s.type.Value

/-- A slot that must be filled. -/
def required (name : String) (type : SlotType) : Slot := ⟨name, type, .required⟩

/-- A slot that may be empty. -/
def optional (name : String) (type : SlotType) : Slot := ⟨name, type, .optional⟩

/-- A slot with a value of its own. -/
def defaulted (name : String) (type : SlotType) (value : type.Value) : Slot :=
  ⟨name, type, .defaulted value⟩

/-- The value in a slot, if there is one. -/
def content? : (s : Slot) → s.Value → Option s.type.Value
  | ⟨_, _, .required⟩, v => some v
  | ⟨_, _, .optional⟩, v => v
  | ⟨_, _, .defaulted _⟩, v => some v

/-- A slot with its value, if there is one, replaced by an action. -/
def mapM {m : Type → Type} [Monad m] (f : (t : SlotType) → t.Value → m t.Value) :
    (s : Slot) → s.Value → m s.Value
  | ⟨_, t, .required⟩, v => f t v
  | ⟨_, t, .optional⟩, some v => some <$> f t v
  | ⟨_, _, .optional⟩, none => pure none
  | ⟨_, t, .defaulted _⟩, v => f t v

/-- What a slot holds when a record has this for its field. -/
def ofField? : (s : Slot) → Option Json → Option s.Value
  | ⟨_, t, .required⟩, field => Json.required t.ofReadable? field
  | ⟨_, t, .optional⟩, field => Json.optional t.ofReadable? field
  | ⟨_, t, .defaulted value⟩, field => Json.defaulted value t.ofReadable? field

end Slot

-- ============================================================== payloads

/-- Values for a list of slots. -/
def Payload : List Slot → Type
  | [] => Unit
  | s :: ss => s.Value × Payload ss

/-- A value together with the name and the type of its slot. -/
structure Entry where
  name : String
  type : SlotType
  value : type.Value

namespace Payload

/-- The filled slots in their order. -/
def entries : (ss : List Slot) → Payload ss → List Entry
  | [], _ => []
  | s :: ss, (v, p) =>
    match s.content? v with
    | some w => ⟨s.name, s.type, w⟩ :: entries ss p
    | none => entries ss p

/-- Every value replaced by an action, in the order of the slots. The action
is told the name of the slot. -/
def mapM {m : Type → Type} [Monad m] (f : String → (t : SlotType) → t.Value → m t.Value) :
    (ss : List Slot) → Payload ss → m (Payload ss)
  | [], p => pure p
  | s :: ss, (v, p) => do
    let v ← s.mapM (f s.name) v
    let p ← mapM f ss p
    pure (v, p)

/-- The payload as fields of a record. -/
def toFields : (ss : List Slot) → Payload ss → List (String × Option Json)
  | [], _ => []
  | s :: ss, (v, p) => (s.name, (s.content? v).map s.type.toJson) :: toFields ss p

/-- The payload that the fields of a record stand for. -/
def ofFields? : (ss : List Slot) → List (Option Json) → Option (Payload ss)
  | [], [] => some ()
  | s :: ss, field :: fields => do some (← s.ofField? field, ← ofFields? ss fields)
  | _, _ => none

end Payload
end PartPlan
