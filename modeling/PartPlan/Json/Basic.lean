/-
JSON values. A number is an integer when it was written as one and fits in
64 bits, and otherwise a binary64 number; members of an object keep their
order and their repetitions, so that a reader of records can refuse a
repeated member.

`unreadable` stands for text that is JSON by its grammar and yet denotes
no value here: a number beyond every finite one, a string with half a
surrogate pair, an object with such a string for a key, or brackets nested
too deep. Whoever looks at such a value fails; who skips it does not.
-/
namespace PartPlan

/-- A JSON value. -/
inductive Json where
  | null
  | bool (b : Bool)
  | int (n : Int)
  | num (x : Float)
  | str (s : String)
  | arr (items : List Json)
  | obj (members : List (String × Json))
  | unreadable
  deriving Inhabited, Repr

namespace Json

/-- The greatest depth of nested brackets that denotes a value. -/
def maxDepth : Nat := 127

/-- A binary64 number as a JSON value; JSON has no NaN and no infinities. -/
def ofFloat (x : Float) : Json := if x.isFinite then .num x else .null

mutual
/-- Whether every part of a value denotes something. -/
def readable : Json → Bool
  | .arr items => allReadable items
  | .obj members => membersReadable members
  | .unreadable => false
  | _ => true

/-- `readable` for the items of an array. -/
def allReadable : List Json → Bool
  | [] => true
  | v :: vs => v.readable && allReadable vs

/-- `readable` for the members of an object. -/
def membersReadable : List (String × Json) → Bool
  | [] => true
  | (_, v) :: ms => v.readable && membersReadable ms
end

/-- The value of a flag. -/
def bool? : Json → Option Bool
  | .bool b => some b
  | _ => none

/-- The value of a number; an integer is rounded to the nearest binary64
number. -/
def float? : Json → Option Float
  | .int n => some (Float.ofInt n)
  | .num x => some x
  | _ => none

/-- The text of a string. -/
def text? : Json → Option String
  | .str s => some s
  | _ => none

/-- The items of an array, each read by `read`. -/
def list? {α : Type} (read : Json → Option α) : Json → Option (List α)
  | .arr items => items.mapM read
  | _ => none

/-- The members of an object. -/
def members? : Json → Option (List (String × Json))
  | .obj ms => some ms
  | _ => none

/-- The last member with a name. -/
def member? (name : String) : Json → Option Json
  | .obj ms => (ms.reverse.find? (·.1 == name)).map (·.2)
  | _ => none

end Json
end PartPlan
