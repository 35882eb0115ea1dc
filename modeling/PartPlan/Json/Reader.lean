/-
Reading JSON. The reader is a stack machine over tokens: a `Frame` holds
what is already known of an open bracket, a `Place` says what may come next,
and one token makes one step. Nesting therefore costs no call stack, however
deep a skipped part of a document may be.

A bracket nested deeper than `maxDepth`, and an object with a key that
denotes nothing, closes to `unreadable`.
-/
import PartPlan.Json.Token

namespace PartPlan.Json

/-- An open bracket with what stands in it so far, last first. The key of the
member that is being read stands in the frame of its object. -/
inductive Frame where
  | list (items : List Json)
  | record (members : List (Option String × Json)) (key : Option String)

/-- What may come next. -/
inductive Place where
  /-- A value. -/
  | value
  /-- A value, or the end of a list that has just begun. -/
  | listStart
  /-- A key, or the end of a record that has just begun. -/
  | recordStart
  /-- A key. -/
  | key
  /-- The colon after a key. -/
  | colon
  /-- What follows the value that has just been read. -/
  | after (v : Json)

/-- A reader in the middle of a document. -/
structure Reading where
  frames : List Frame
  place : Place

/-- The members of an object, if each key denotes a text. -/
def namedMembers? (ms : List (Option String × Json)) : Option (List (String × Json)) :=
  ms.mapM fun (k, v) => k.map fun k => (k, v)

/-- A value that has just closed with `outside` brackets around it. -/
def sealed (outside : Nat) (v : Json) : Json := if maxDepth ≤ outside then .unreadable else v

/-- A closed list. -/
def closedList (outside : Nat) (items : List Json) : Json := sealed outside (.arr items.reverse)

/-- A closed record. -/
def closedRecord (outside : Nat) (members : List (Option String × Json)) : Json :=
  match namedMembers? members.reverse with
  | some ms => sealed outside (.obj ms)
  | none => .unreadable

/-- A string as a value. -/
def ofText : Option String → Json
  | some s => .str s
  | none => .unreadable

/-- A token where a value may begin. -/
def Reading.begin? (frames : List Frame) : Token → Option Reading
  | .openList => some ⟨.list [] :: frames, .listStart⟩
  | .openRecord => some ⟨.record [] none :: frames, .recordStart⟩
  | .text s => some ⟨frames, .after (ofText s)⟩
  | .scalar v => some ⟨frames, .after v⟩
  | _ => none

/-- A token where a key is due. -/
def Reading.key? : List Frame → Token → Option Reading
  | .record ms _ :: frames, .text s => some ⟨.record ms s :: frames, .colon⟩
  | _, _ => none

/-- A token after the value `v`. -/
def Reading.follow? (v : Json) : List Frame → Token → Option Reading
  | .list items :: frames, .comma => some ⟨.list (v :: items) :: frames, .value⟩
  | .list items :: frames, .closeList =>
    some ⟨frames, .after (closedList frames.length (v :: items))⟩
  | .record ms k :: frames, .comma => some ⟨.record ((k, v) :: ms) none :: frames, .key⟩
  | .record ms k :: frames, .closeRecord =>
    some ⟨frames, .after (closedRecord frames.length ((k, v) :: ms))⟩
  | _, _ => none

/-- One step. -/
def Reading.step? (r : Reading) (t : Token) : Option Reading :=
  match r.place, t with
  | .value, t => begin? r.frames t
  | .listStart, .closeList =>
    match r.frames with
    | .list items :: frames => some ⟨frames, .after (closedList frames.length items)⟩
    | _ => none
  | .listStart, t => begin? r.frames t
  | .recordStart, .closeRecord =>
    match r.frames with
    | .record ms _ :: frames => some ⟨frames, .after (closedRecord frames.length ms)⟩
    | _ => none
  | .recordStart, t => key? r.frames t
  | .key, t => key? r.frames t
  | .colon, .colon => some ⟨r.frames, .value⟩
  | .colon, _ => none
  | .after v, t => follow? v r.frames t

/-- Steps over a list of tokens. -/
def Reading.run? (r : Reading) : List Token → Option Reading
  | [] => some r
  | t :: ts => do (← r.step? t).run? ts

/-- The value of a finished document. -/
def Reading.result? (r : Reading) : Option Json :=
  match r.frames, r.place with
  | [], .after v => some v
  | _, _ => none

/-- The value a list of tokens denotes. -/
def ofTokens? (ts : List Token) : Option Json := do
  (← Reading.run? ⟨[], .value⟩ ts).result?

/-- The value of a JSON document to a reader that rounds numbers as `r` does. -/
def parse? (r : Number.Rounding) (text : String) : Option Json := do
  ofTokens? (← Token.scan r text.toList)

end PartPlan.Json
