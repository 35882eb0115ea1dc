/-
The shortest decimal that reads back as a given binary64 number.

The numbers that round to `m · 2 ^ q` form an interval around it, ends
included exactly when `m` is even. `shortest` walks the decimal grids
`10 ^ k` from coarse to fine, and on each grid looks at the two grid points
next to the number; the first grid with a point in the interval gives the
fewest digits, and of two such points the nearer one is taken. An exact tie
between the two is settled by the caller.
-/
import PartPlan.Number.Exact

namespace PartPlan.Number

/-- A decimal quantity `digits · 10 ^ exponent`. -/
structure Decimal where
  digits : Nat
  exponent : Int
  deriving DecidableEq, Repr

/-- Which of two equally near neighbours is taken. -/
inductive Tie where
  | toEven
  | up
  deriving DecidableEq, Repr

/-- The interval of quantities that round to one number, in units of a
common denominator: `value`, `low` and `high` are numerators over `scale`. -/
structure Interval where
  low : Nat
  value : Nat
  high : Nat
  scale : Nat
  closed : Bool
  deriving DecidableEq, Repr

/-- The rounding interval of a finite positive number. Units are quarters of
the last place, because below a power of two the gap is half as wide. -/
def Interval.of (x : Float) : Interval :=
  let m := significand x
  let q := exponent x - 2
  let up := if 0 ≤ q then Nat.pow 2 q.natAbs else 1
  let below := if m = Nat.pow 2 52 ∧ 1 < exponentField x then 1 else 2
  { low := (4 * m - below) * up
    value := 4 * m * up
    high := (4 * m + 2) * up
    scale := if 0 ≤ q then 1 else Nat.pow 2 q.natAbs
    closed := m % 2 = 0 }

/-- Whether `d` steps of size `step` (over the common denominator) lie in
the interval. -/
def Interval.contains (i : Interval) (num : Nat) : Bool :=
  if i.closed then i.low ≤ num && num ≤ i.high
  else i.low < num && num < i.high

/-- The same interval with every numerator multiplied by `k`. -/
def Interval.magnify (i : Interval) (k : Nat) : Interval :=
  { i with low := i.low * k, value := i.value * k, high := i.high * k }

/-- The grid point on grid `10 ^ k` to be printed, if one of the two
neighbours of the value lies in the interval. -/
def Interval.gridPoint? (i : Interval) (tie : Tie) (k : Int) : Option Nat :=
  let j := if 0 ≤ k then i else i.magnify (Nat.pow 10 k.natAbs)
  let step := if 0 ≤ k then Nat.pow 10 k.natAbs * i.scale else i.scale
  let below := j.value / step
  let above := below + 1
  match j.contains (below * step), j.contains (above * step) with
  | false, false => none
  | true, false => some below
  | false, true => some above
  | true, true =>
    let gapBelow := j.value - below * step
    let gapAbove := above * step - j.value
    if gapBelow < gapAbove then some below
    else if gapAbove < gapBelow then some above
    else match tie with
      | .up => some above
      | .toEven => some (if below % 2 = 0 then below else above)

/-- The first hit among `fuel` grids, from `10 ^ k` downwards. -/
def Interval.firstHit (i : Interval) (tie : Tie) : Nat → Int → Option Decimal
  | 0, _ => none
  | fuel + 1, k =>
    match i.gridPoint? tie k with
    | some d => some ⟨d, k⟩
    | none => i.firstHit tie fuel (k - 1)

/-- A decimal exponent whose grid is coarser than the number itself. -/
def coarsestGrid (x : Float) : Int :=
  (((significand x).log2 : Int) + 1 + exponent x) * 30103 / 100000 + 2

/-- The exact decimal of a finite number, `m · 2 ^ q` written over a power
of ten. -/
def exactDecimal (x : Float) : Decimal :=
  if 0 ≤ exponent x then ⟨significand x * Nat.pow 2 (exponent x).natAbs, 0⟩
  else ⟨significand x * Nat.pow 5 (exponent x).natAbs, exponent x⟩

/-- The shortest decimal that rounds to the magnitude of a finite nonzero
number. Thirty grids below the coarsest one always hold a hit, the
seventeenth significant digit being finer than any rounding interval. -/
def shortest (tie : Tie) (x : Float) : Decimal :=
  ((Interval.of x).firstHit tie 30 (coarsestGrid x)).getD (exactDecimal x)

end PartPlan.Number
