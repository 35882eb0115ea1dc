/-
Binary64 numbers as exact quantities. A finite number is `± m · 2 ^ q` for
natural `m` and integer `q`, both read off its bits, so every rule that
needs an exact answer (is it whole, which integer is nearest, which of two
is larger) is a statement about `Nat` and `Int`.

Order goes through `orderKey`: numbers other than NaN compare as their keys
do, the two zeros share the key `0`, and NaN has no key.
-/
namespace PartPlan.Number

/-- The bits without the sign, as a natural number. -/
def magnitudeBits (x : Float) : Nat := x.toBits.toNat % Nat.pow 2 63

/-- Whether the sign bit is set; true of `-0.0`. -/
def isNegative (x : Float) : Bool := Nat.pow 2 63 ≤ x.toBits.toNat

/-- The biased exponent field. -/
def exponentField (x : Float) : Nat := magnitudeBits x / Nat.pow 2 52

/-- The stored fraction field. -/
def fractionField (x : Float) : Nat := magnitudeBits x % Nat.pow 2 52

/-- The significand `m` of a finite number `± m · 2 ^ q`. -/
def significand (x : Float) : Nat :=
  if exponentField x = 0 then fractionField x else fractionField x + Nat.pow 2 52

/-- The exponent `q` of a finite number `± m · 2 ^ q`. -/
def exponent (x : Float) : Int :=
  if exponentField x = 0 then -1074 else (exponentField x : Int) - 1075

/-- The place of a number in the order of the numbers: `none` for NaN, the
same key for both zeros, and otherwise strictly increasing. -/
def orderKey (x : Float) : Option Int :=
  if x.isNaN then none
  else if isNegative x then some (-(magnitudeBits x : Int))
  else some (magnitudeBits x : Int)

/-- Whether a finite number is an integer. -/
def isWhole (x : Float) : Bool :=
  if 0 ≤ exponent x then true
  else significand x % Nat.pow 2 (exponent x).natAbs = 0

/-- The integer nearest to a finite number, a half going away from zero. -/
def roundAwayFromZero (x : Float) : Int :=
  let size : Nat :=
    if 0 ≤ exponent x then significand x * Nat.pow 2 (exponent x).natAbs
    else
      let unit := Nat.pow 2 (exponent x).natAbs
      (2 * significand x + unit) / (2 * unit)
  if isNegative x then -(size : Int) else (size : Int)

/-- The least 64-bit signed integer. -/
def minInt64 : Int := -9223372036854775808

/-- The greatest 64-bit signed integer. -/
def maxInt64 : Int := 9223372036854775807

/-- The 64-bit signed integer nearest to an integer. -/
def clampInt64 (n : Int) : Int := max minInt64 (min maxInt64 n)

/-- The nearest 64-bit signed integer: NaN gives 0 and what is out of range
gives the bound on its side. -/
def toInt64Saturating (x : Float) : Int :=
  if x.isNaN then 0
  else if x.isFinite then clampInt64 (roundAwayFromZero x)
  else if isNegative x then minInt64 else maxInt64

end PartPlan.Number
