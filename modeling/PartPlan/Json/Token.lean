/-
The tokens of JSON text. `Token.scan` cuts a text into brackets, commas,
colons and scalar values, and refuses it when some stretch is no token. A
number or a string that is well formed and yet denotes nothing becomes a
token without a value, and the reader decides whether that matters. How a
number is rounded is given from outside: JSON itself does not say.
-/
import PartPlan.Json.Basic
import PartPlan.Number.Literal

namespace PartPlan.Json

/-- A token. A string without a value is `text none`. -/
inductive Token where
  | openList
  | closeList
  | openRecord
  | closeRecord
  | comma
  | colon
  | text (s : Option String)
  | scalar (v : Json)
  deriving Repr

namespace Token

/-- The blanks that may stand between tokens. -/
def isSpace (c : Char) : Bool := c == ' ' || c == '\n' || c == '\r' || c == '\t'

/-- A decimal digit. -/
def isDigit (c : Char) : Bool := '0' ≤ c && c ≤ '9'

/-- The value of a hexadecimal digit. -/
def hexValue? (c : Char) : Option Nat :=
  if '0' ≤ c ∧ c ≤ '9' then some (c.toNat - '0'.toNat)
  else if 'a' ≤ c ∧ c ≤ 'f' then some (c.toNat - 'a'.toNat + 10)
  else if 'A' ≤ c ∧ c ≤ 'F' then some (c.toNat - 'A'.toNat + 10)
  else none

-- ============================================================== strings

/-- The character a one-letter escape stands for. -/
def escaped? : Char → Option Char
  | '"' => some '"'
  | '\\' => some '\\'
  | '/' => some '/'
  | 'b' => some '\x08'
  | 'f' => some '\x0c'
  | 'n' => some '\n'
  | 'r' => some '\r'
  | 't' => some '\t'
  | _ => none

/-- The code units of a string up to its closing quote, and the rest. A
plain character is one unit; a numeric escape is the unit it gives, which
may be half a surrogate pair. -/
def units? : List Char → Option (List Nat × List Char)
  | [] => none
  | '"' :: rest => some ([], rest)
  | '\\' :: 'u' :: a :: b :: c :: d :: rest => do
    let a ← hexValue? a
    let b ← hexValue? b
    let c ← hexValue? c
    let d ← hexValue? d
    let (us, rest) ← units? rest
    some ((((a * 16 + b) * 16 + c) * 16 + d) :: us, rest)
  | '\\' :: e :: rest => do
    let e ← escaped? e
    let (us, rest) ← units? rest
    some (e.toNat :: us, rest)
  | c :: rest =>
    if c == '\\' || c.toNat < 0x20 then none
    else do
      let (us, rest) ← units? rest
      some (c.toNat :: us, rest)

/-- The characters of code units: a high surrogate and a low one right after
it make one character, and a surrogate on its own makes none. -/
def charsOfUnits? : List Nat → Option (List Char)
  | [] => some []
  | [u] => if 0xD800 ≤ u ∧ u < 0xE000 then none else some [Char.ofNat u]
  | u :: v :: us =>
    if 0xD800 ≤ u ∧ u < 0xDC00 then
      if 0xDC00 ≤ v ∧ v < 0xE000 then
        (Char.ofNat (0x10000 + (u - 0xD800) * 0x400 + (v - 0xDC00)) :: ·) <$> charsOfUnits? us
      else none
    else if 0xDC00 ≤ u ∧ u < 0xE000 then none
    else (Char.ofNat u :: ·) <$> charsOfUnits? (v :: us)

/-- A string after its opening quote, and the rest. -/
def string? (cs : List Char) : Option (Option String × List Char) := do
  let (us, rest) ← units? cs
  some ((charsOfUnits? us).map String.ofList, rest)

-- ============================================================== numbers

/-- A run of digits and the rest. -/
def digitRun (cs : List Char) : List Char × List Char := (cs.takeWhile isDigit, cs.dropWhile isDigit)

/-- The natural number a run of digits denotes. -/
def digitsValue (ds : List Char) : Nat := ds.foldl (fun n d => n * 10 + (d.toNat - '0'.toNat)) 0

/-- The integer part: no digit stands after a leading zero. -/
def wholePart? (cs : List Char) : Option (List Char × List Char) :=
  let (ds, rest) := digitRun cs
  if ds = [] ∨ (ds.head? = some '0' ∧ ds ≠ ['0']) then none else some (ds, rest)

/-- The digits after a point, if there is one; a point needs digits. -/
def fractionPart? : List Char → Option (Option (List Char) × List Char)
  | '.' :: cs =>
    let (ds, rest) := digitRun cs
    if ds.isEmpty then none else some (some ds, rest)
  | cs => some (none, cs)

/-- The digits of an exponent with their sign; an exponent needs digits. -/
def exponentDigits? (cs : List Char) (negative : Bool) : Option (Option Int × List Char) :=
  let (ds, rest) := digitRun cs
  if ds.isEmpty then none
  else
    let n : Int := digitsValue ds
    some (some (if negative then -n else n), rest)

/-- The exponent, if there is one. -/
def exponentPart? : List Char → Option (Option Int × List Char)
  | 'e' :: '-' :: cs | 'E' :: '-' :: cs => exponentDigits? cs true
  | 'e' :: '+' :: cs | 'E' :: '+' :: cs => exponentDigits? cs false
  | 'e' :: cs | 'E' :: cs => exponentDigits? cs false
  | cs => some (none, cs)

/-- A number without its sign, and the rest. -/
def magnitude? (negative : Bool) (cs : List Char) : Option (Number.Literal × List Char) := do
  let (whole, rest) ← wholePart? cs
  let (fraction, rest) ← fractionPart? rest
  let (exponent, rest) ← exponentPart? rest
  let places := fraction.getD []
  some (⟨negative, digitsValue (whole ++ places), exponent.getD 0 - places.length,
    places.length, fraction.isNone && exponent.isNone⟩, rest)

/-- A number literal and the rest. -/
def literal? : List Char → Option (Number.Literal × List Char)
  | '-' :: cs => magnitude? true cs
  | cs => magnitude? false cs

/-- The value of a literal to a reader: an integer if it is one that fits,
and otherwise the binary64 number that the reader rounds it to. -/
def literalValue (r : Number.Rounding) (l : Number.Literal) : Json :=
  match l.toInt64? with
  | some n => .int n
  | none => ((r.round l).map Json.num).getD .unreadable

-- =============================================================== tokens

/-- The first token of a text that starts with no blank, and the rest. -/
def next? (r : Number.Rounding) : List Char → Option (Token × List Char)
  | '[' :: cs => some (.openList, cs)
  | ']' :: cs => some (.closeList, cs)
  | '\x7b' :: cs => some (.openRecord, cs)
  | '\x7d' :: cs => some (.closeRecord, cs)
  | ',' :: cs => some (.comma, cs)
  | ':' :: cs => some (.colon, cs)
  | 'n' :: 'u' :: 'l' :: 'l' :: cs => some (.scalar .null, cs)
  | 't' :: 'r' :: 'u' :: 'e' :: cs => some (.scalar (.bool true), cs)
  | 'f' :: 'a' :: 'l' :: 's' :: 'e' :: cs => some (.scalar (.bool false), cs)
  | '"' :: cs => (string? cs).map fun (s, rest) => (.text s, rest)
  | cs => (literal? cs).map fun (l, rest) => (.scalar (literalValue r l), rest)

-- ============================================================= progress

theorem units?_length {cs : List Char} {us : List Nat} {rest : List Char}
    (h : units? cs = some (us, rest)) : rest.length < cs.length := by
  fun_induction units? cs generalizing us rest with
  | case1 => simp at h
  | case2 => grind
  | case3 a b c d r ih =>
    simp only [Option.bind_eq_bind, Option.bind_eq_some_iff, Prod.exists] at h
    obtain ⟨_, -, _, -, _, -, _, -, us', r', hr, h⟩ := h
    have := ih hr
    grind
  | case4 e r _ ih =>
    simp only [Option.bind_eq_bind, Option.bind_eq_some_iff, Prod.exists] at h
    obtain ⟨_, -, us', r', hr, h⟩ := h
    have := ih hr
    grind
  | case5 => simp at h
  | case6 c r _ _ _ _ ih =>
    simp only [Option.bind_eq_bind, Option.bind_eq_some_iff, Prod.exists] at h
    obtain ⟨us', r', hr, h⟩ := h
    have := ih hr
    grind

theorem digitRun_length (cs : List Char) :
    (digitRun cs).1.length + (digitRun cs).2.length = cs.length := by
  rw [digitRun, ← List.length_append, List.takeWhile_append_dropWhile]

theorem wholePart?_length {cs ds rest : List Char} (h : wholePart? cs = some (ds, rest)) :
    rest.length < cs.length := by
  have total := digitRun_length cs
  simp only [wholePart?] at h
  split at h
  · simp at h
  · next ok =>
    have := List.length_pos_iff.2 fun e => ok (.inl e)
    grind

theorem fractionPart?_length {cs rest : List Char} {ds : Option (List Char)}
    (h : fractionPart? cs = some (ds, rest)) : rest.length ≤ cs.length := by
  unfold fractionPart? at h
  split at h
  · next r =>
    have := digitRun_length r
    grind
  · grind

theorem exponentDigits?_length {cs rest : List Char} {negative : Bool} {e : Option Int}
    (h : exponentDigits? cs negative = some (e, rest)) : rest.length ≤ cs.length := by
  have := digitRun_length cs
  simp only [exponentDigits?] at h
  split at h <;> grind

theorem exponentPart?_length {cs rest : List Char} {e : Option Int}
    (h : exponentPart? cs = some (e, rest)) : rest.length ≤ cs.length := by
  unfold exponentPart? at h
  split at h
  case h_7 => grind
  all_goals
    have := exponentDigits?_length h
    simp only [List.length_cons]
    omega

theorem magnitude?_length {cs rest : List Char} {negative : Bool} {l : Number.Literal}
    (h : magnitude? negative cs = some (l, rest)) : rest.length < cs.length := by
  simp only [magnitude?, Option.bind_eq_bind, Option.bind_eq_some_iff, Prod.exists] at h
  obtain ⟨ds, r, hw, f, r', hf, e, r'', he, h⟩ := h
  have := wholePart?_length hw
  have := fractionPart?_length hf
  have := exponentPart?_length he
  grind

theorem literal?_length {cs rest : List Char} {l : Number.Literal}
    (h : literal? cs = some (l, rest)) : rest.length < cs.length := by
  unfold literal? at h
  split at h
  · have := magnitude?_length h
    simp only [List.length_cons]
    omega
  · exact magnitude?_length h

/-- A token takes at least one character. -/
theorem next?_length {r : Number.Rounding} {cs rest : List Char} {t : Token}
    (h : next? r cs = some (t, rest)) : rest.length < cs.length := by
  unfold next? at h
  split at h
  case h_10 =>
    simp only [string?, Option.map_eq_some_iff, Option.bind_eq_bind, Option.bind_eq_some_iff,
      Prod.exists] at h
    obtain ⟨s, r, ⟨us, r', hu, hs⟩, h⟩ := h
    have := units?_length hu
    grind
  case h_11 =>
    simp only [Option.map_eq_some_iff, Prod.exists] at h
    obtain ⟨l, r, hl, h⟩ := h
    have := literal?_length hl
    grind
  all_goals grind

/-- The tokens of a text. -/
def scan (r : Number.Rounding) (cs : List Char) : Option (List Token) :=
  match cs with
  | [] => some []
  | c :: rest =>
    if isSpace c then scan r rest
    else
      match _ : next? r (c :: rest) with
      | none => none
      | some (t, after) => (t :: ·) <$> scan r after
termination_by cs.length
decreasing_by
  · simp
  · rename_i found
    simpa using next?_length found

end Token
end PartPlan.Json
