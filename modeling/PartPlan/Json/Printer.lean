/-
Writing JSON. One printer serves both forms: a `Spacing` says what blank
text may stand where JSON allows it, so the compact and the indented form
differ in blanks only. Members are written in the order of the value.

The printer writes in front of a given rest, so that a law about a part of a
document does not depend on what follows it.
-/
import PartPlan.Json.Basic
import PartPlan.Number.Layout

namespace PartPlan.Json

/-- The blanks of a written document: `gap d` stands before an item, a
member or a closing bracket at depth `d`, and `afterColon` after a colon. -/
structure Spacing where
  gap : Nat → List Char
  afterColon : List Char

/-- No blanks. -/
def Spacing.compact : Spacing := ⟨fun _ => [], []⟩

/-- A line for every item, indented by two blanks a level. -/
def Spacing.indented : Spacing := ⟨fun d => '\n' :: List.replicate (2 * d) ' ', [' ']⟩

/-- One character of a string between its quotes. Quotes, backslashes and
control characters below the space are escaped, and nothing else is. -/
def escapeChar (c : Char) : List Char :=
  match c with
  | '"' => ['\\', '"']
  | '\\' => ['\\', '\\']
  | '\x08' => ['\\', 'b']
  | '\x0c' => ['\\', 'f']
  | '\n' => ['\\', 'n']
  | '\r' => ['\\', 'r']
  | '\t' => ['\\', 't']
  | _ =>
    if c.toNat < 0x20 then
      ['\\', 'u', '0', '0', Nat.digitChar (c.toNat / 16), Nat.digitChar (c.toNat % 16)]
    else [c]

/-- A string with its quotes. -/
def stringChars (s : String) : List Char := '"' :: (s.toList.flatMap escapeChar ++ ['"'])

/-- An integer in decimal digits. -/
def intChars (n : Int) : List Char :=
  if n < 0 then '-' :: Number.digitChars n.natAbs else Number.digitChars n.natAbs

mutual
/-- A value at a depth, written in front of `rest`. Empty brackets hold no
blanks. -/
def write (sp : Spacing) (depth : Nat) : Json → List Char → List Char
  | .null, rest => 'n' :: 'u' :: 'l' :: 'l' :: rest
  | .bool true, rest => 't' :: 'r' :: 'u' :: 'e' :: rest
  | .bool false, rest => 'f' :: 'a' :: 'l' :: 's' :: 'e' :: rest
  | .int n, rest => intChars n ++ rest
  | .num x, rest => Number.Layout.json.chars x ++ rest
  | .str s, rest => stringChars s ++ rest
  | .arr [], rest => '[' :: ']' :: rest
  | .arr (v :: vs), rest =>
    '[' :: (sp.gap (depth + 1) ++ write sp (depth + 1) v (writeItems sp depth vs rest))
  | .obj [], rest => '\x7b' :: '\x7d' :: rest
  | .obj ((k, v) :: ms), rest =>
    '\x7b' :: (sp.gap (depth + 1) ++ (stringChars k ++ ':' :: (sp.afterColon
      ++ write sp (depth + 1) v (writeMembers sp depth ms rest))))
  | .unreadable, rest => 'n' :: 'u' :: 'l' :: 'l' :: rest

/-- The items after the first, and the closing bracket. -/
def writeItems (sp : Spacing) (depth : Nat) : List Json → List Char → List Char
  | [], rest => sp.gap depth ++ ']' :: rest
  | v :: vs, rest =>
    ',' :: (sp.gap (depth + 1) ++ write sp (depth + 1) v (writeItems sp depth vs rest))

/-- The members after the first, and the closing brace. -/
def writeMembers (sp : Spacing) (depth : Nat) : List (String × Json) → List Char → List Char
  | [], rest => sp.gap depth ++ '\x7d' :: rest
  | (k, v) :: ms, rest =>
    ',' :: (sp.gap (depth + 1) ++ (stringChars k ++ ':' :: (sp.afterColon
      ++ write sp (depth + 1) v (writeMembers sp depth ms rest))))
end

/-- The compact text of a value. -/
def compact (v : Json) : String := String.ofList (v.write .compact 0 [])

/-- The indented text of a value. -/
def indented (v : Json) : String := String.ofList (v.write .indented 0 [])

end PartPlan.Json
