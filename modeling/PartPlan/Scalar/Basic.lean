/-
Scalars: a number, or an expression over literals and parameters. In a
normalized part every scalar is a plain number.
-/
import PartPlan.Json.Record

namespace PartPlan

/-- An arithmetic operator. -/
inductive Operator where
  | add
  | sub
  | mul
  | div
  deriving DecidableEq, Repr

namespace Operator

/-- The sign of an operator. -/
def sign : Operator → String
  | add => "+"
  | sub => "-"
  | mul => "*"
  | div => "/"

def all : List Operator := [add, sub, mul, div]

/-- The operation on binary64 numbers. -/
def apply : Operator → Float → Float → Float
  | add, x, y => x + y
  | sub, x, y => x - y
  | mul, x, y => x * y
  | div, x, y => x / y

def choices : List (String × Operator) := all.map fun o => (o.sign, o)

end Operator

/-- A number or an expression. -/
inductive Scalar where
  /-- A plain number. -/
  | value (x : Float)
  /-- A literal that may carry a unit. -/
  | literal (x : Float) (unit : Option String)
  /-- A parameter. -/
  | param (id : String)
  | binary (op : Operator) (left right : Scalar)
  | neg (operand : Scalar)
  deriving DecidableEq, Repr

namespace Scalar

instance : Inhabited Scalar := ⟨value 0⟩

/-- The scalar that stands for a missing one. -/
def zero : Scalar := value 0

/-- The number of a plain number. -/
def value? : Scalar → Option Float
  | value x => some x
  | _ => none

/-- Whether a scalar is a number or a literal without a unit. -/
def isUnitless : Scalar → Bool
  | value _ => true
  | literal _ unit => unit.isNone
  | _ => false

-- =============================================================== as JSON

/-- The forms of an expression. -/
inductive Form where
  | literal
  | param
  | binary
  | neg
  deriving DecidableEq, Repr

def forms : List (String × Form) :=
  [("expr.literal", .literal), ("expr.param", .param), ("expr.binary", .binary),
    ("expr.neg", .neg)]

/-- The fields of each form. -/
def Form.fields : Form → List String
  | .literal => ["value", "unit"]
  | .param => ["id"]
  | .binary => ["op", "left", "right"]
  | .neg => ["value"]

/-- A number is written as one, and an expression as a tagged record. -/
def toJson : Scalar → Json
  | value x => .ofFloat x
  | literal x unit =>
    Json.taggedRecord "expr.literal" [("value", some (.ofFloat x)), ("unit", unit.map .str)]
  | param id => Json.taggedRecord "expr.param" [("id", some (.str id))]
  | binary op left right =>
    Json.taggedRecord "expr.binary"
      [("op", some (.str op.sign)), ("left", some left.toJson), ("right", some right.toJson)]
  | neg operand => Json.taggedRecord "expr.neg" [("value", some operand.toJson)]

/-- The scalar a readable value stands for: a number as it is, and otherwise
an expression. -/
def ofReadable? (v : Json) : Option Scalar :=
  match v.float? with
  | some x => some (.value x)
  | none =>
    match _ : Json.taggedFields? .namedOrNumbered forms Form.fields v with
    | some (.literal, [x, unit]) => do
      some (.literal (← Json.required Json.float? x) (← Json.optional Json.text? unit))
    | some (.param, [id]) => .param <$> Json.required Json.text? id
    | some (.binary, [op, some left, some right]) => do
      some (.binary (← Json.required (Json.innerKeyword? Operator.choices) op)
        (← ofReadable? left) (← ofReadable? right))
    | some (.neg, [some operand]) => .neg <$> ofReadable? operand
    | _ => none
termination_by sizeOf v
decreasing_by all_goals exact Json.sizeOf_lt_of_taggedFields? ‹_› (by simp)

def ofJson? (v : Json) : Option Scalar := do ofReadable? (← v.whole?)

end Scalar
end PartPlan
