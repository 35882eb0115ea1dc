/-
How a number is written. The digits are those of the shortest decimal; a
`Layout` decides everything else: between which exponents the point is
written in place, whether a whole number keeps a fraction, and which way
ties go. The library has two layouts: `Layout.json` for serialized
documents and `Layout.message` for error texts.
-/
import PartPlan.Number.Shortest

namespace PartPlan.Number

/-- The decisions about a number's text that its digits leave open. -/
structure Layout where
  /-- The least and greatest power of ten of the leading digit for which
  the number is written positionally; `none` for always. -/
  positional : Option (Int × Int)
  /-- Whether a whole number is written with `.0`. -/
  wholeFraction : Bool
  tie : Tie
  deriving DecidableEq, Repr

/-- Positional from `1e-5` below `1e16`, always with a fraction, otherwise
`d.ddde±x`; ties go to the even digit. -/
def Layout.json : Layout := ⟨some (-5, 15), true, .toEven⟩

/-- Always positional and without a needless fraction; ties go up. -/
def Layout.message : Layout := ⟨none, false, .up⟩

/-- The decimal digits of a natural number. -/
def digitChars (n : Nat) : List Char := Nat.toDigits 10 n

/-- Digits with the point in place: `point` digits stand before it, and
zeros are supplied on either side. -/
def positionalChars (wholeFraction : Bool) (ds : List Char) (point : Int) : List Char :=
  if point ≤ 0 then '0' :: '.' :: (List.replicate point.natAbs '0' ++ ds)
  else if ds.length ≤ point.natAbs then
    ds ++ List.replicate (point.natAbs - ds.length) '0'
      ++ (if wholeFraction then ['.', '0'] else [])
  else ds.take point.natAbs ++ '.' :: ds.drop point.natAbs

/-- Digits in exponent notation with an explicit sign. -/
def exponentChars (ds : List Char) (leading : Int) : List Char :=
  let mantissa := match ds with
    | [] => []
    | [d] => [d]
    | d :: rest => d :: '.' :: rest
  mantissa ++ 'e' :: (if leading < 0 then '-' else '+') :: digitChars leading.natAbs

/-- The text of a decimal. -/
def Layout.decimalChars (l : Layout) (d : Decimal) : List Char :=
  let ds := digitChars d.digits
  let point := (ds.length : Int) + d.exponent
  let inPlace := match l.positional with
    | none => true
    | some (lo, hi) => lo ≤ point - 1 && point - 1 ≤ hi
  if inPlace then positionalChars l.wholeFraction ds point else exponentChars ds (point - 1)

/-- The text of a number. Zero keeps its sign. -/
def Layout.chars (l : Layout) (x : Float) : List Char :=
  if x.isNaN then "NaN".toList
  else
    let sign := if isNegative x then ['-'] else []
    if !x.isFinite then sign ++ "inf".toList
    else if magnitudeBits x = 0 then
      sign ++ '0' :: (if l.wholeFraction then ['.', '0'] else [])
    else sign ++ l.decimalChars (shortest l.tie x)

/-- A number as an error text shows it. -/
def messageText (x : Float) : String := String.ofList (Layout.message.chars x)

end PartPlan.Number
