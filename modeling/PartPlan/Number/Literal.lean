/-
Number literals and the numbers they denote. A literal is kept exact, as a
sign, a natural number of digits and a power of ten. Which binary64 number
it stands for is left to the reader (`Rounding`), and readers differ:
`Literal.toFloat?` rounds a literal once, to the nearest number, and others
round its digits first and what a power of ten makes of them again. All of
them refuse a literal that is too large.
-/
import PartPlan.Number.Exact

namespace PartPlan.Number

/-- A decimal literal `± digits · 10 ^ exponent`. `places` of its digits are
written behind a point, and `whole` says that it is written with neither a
point nor an exponent. -/
structure Literal where
  negative : Bool
  digits : Nat
  exponent : Int
  places : Nat
  whole : Bool
  deriving DecidableEq, Repr

/-- A number with the given sign and magnitude. -/
def withSign (negative : Bool) (x : Float) : Float := if negative then -x else x

/-- A number, unless it is too large to be one. -/
def finite? (x : Float) : Option Float := if x.isFinite then some x else none

theorem isFinite_of_finite? {x y : Float} (h : finite? x = some y) : y.isFinite = true := by
  unfold finite? at h
  split at h
  · next finite =>
    cases h
    exact finite
  · cases h

/-- The number nearest to a literal. A literal above every finite number has
none, and one far below the least positive number gives a zero; the two
bounds on the size keep the powers of ten small. -/
def Literal.toFloat? (l : Literal) : Option Float :=
  let size := ((Nat.toDigits 10 l.digits).length : Int) + l.exponent
  if l.digits = 0 ∨ size < -400 then some (withSign l.negative 0.0)
  else if 400 < size then none
  else
    finite? (withSign l.negative
      (Float.ofScientific l.digits (l.exponent < 0) l.exponent.natAbs))

theorem Literal.isFinite_of_toFloat? {l : Literal} {x : Float} (h : l.toFloat? = some x) :
    x.isFinite = true := by
  unfold toFloat? at h
  dsimp only at h
  split at h
  · have zeros : ∀ negative, (withSign negative 0.0).isFinite = true := by decide
    cases h
    exact zeros l.negative
  · split at h
    · cases h
    · exact isFinite_of_finite? h

/-- How a reader rounds literals. It may go by all that is kept of them, and
refuses one that it has no finite number for. -/
structure Rounding where
  round : Literal → Option Float
  finite : ∀ {l x}, round l = some x → x.isFinite = true

/-- Rounding to the nearest number. -/
def Rounding.nearest : Rounding := ⟨Literal.toFloat?, Literal.isFinite_of_toFloat?⟩

/-- Rounding the digits first, and then what a power of ten makes of them. -/
def Rounding.twice : Rounding where
  round l :=
    let digits := Float.ofNat l.digits
    let power := Float.ofNat (Nat.pow 10 l.exponent.natAbs)
    finite? (withSign l.negative (if l.exponent < 0 then digits / power else digits * power))
  finite := isFinite_of_finite?

/-- The integer a whole literal denotes when a 64-bit integer can hold it:
unsigned if it has no sign, signed if it has one. Minus zero is not an
integer. -/
def Literal.toInt64? (l : Literal) : Option Int :=
  if !l.whole then none
  else if l.negative then
    if l.digits = 0 ∨ Nat.pow 2 63 < l.digits then none else some (-(l.digits : Int))
  else if l.digits < Nat.pow 2 64 then some (l.digits : Int) else none

end PartPlan.Number
