/-
Lengths in the unit of the part itself. They are converted as any others are: multiplied
by the millimetres of their unit and divided by those of the part's. That the two are the
same number does not make the conversion the identity. The product can be too large, and
it is rounded before it is divided, so a length is what it was only if a unit system
keeps it (`UnitSystem.Keeps`).

Millimetres keep everything, and every unit keeps a length whose millimetres are a number
of the format; a length without a unit and an angle in degrees are not touched at all.
Where all lengths in a scalar are kept, they can be replaced by bare numbers.
-/
import PartPlan.Proofs.Number.Product
import PartPlan.Proofs.Scalar.Finite

namespace PartPlan

open Number (magnitude significand exponent limit Rounds)

variable {u : UnitSystem} {name : String} {x y : Float} {table : ParamTable} {s : Scalar}

-- ============================================================ unit systems

namespace UnitSystem

variable (u)

theorem positive_millimetres : Number.Positive u.millimetres := by
  cases u <;> exact ⟨by decide, by decide, by decide⟩

theorem full_millimetres : 2 ^ 52 ≤ significand u.millimetres := by
  cases u <;> decide

/-- No unit is less than a millimetre. -/
theorem one_le_millimetres : 1 ≤ magnitude u.millimetres := by
  have places : -52 ≤ exponent u.millimetres := by cases u <;> decide
  have bits : ((2 : ℚ) ^ 52) ≤ significand u.millimetres := by
    exact_mod_cast u.full_millimetres
  calc (1 : ℚ) = 2 ^ 52 * 2 ^ (-52 : ℤ) := by norm_num
    _ ≤ magnitude u.millimetres :=
      mul_le_mul bits (zpow_le_zpow_right₀ one_le_two places) (by positivity) (by positivity)

/-- A unit system keeps a number if so many units are not too many millimetres for the
format, and if their millimetres, rounded and then divided exactly by those of one unit,
round to the number. -/
structure Keeps (u : UnitSystem) (x : Float) : Prop where
  small : magnitude x * magnitude u.millimetres < limit
  nearest : Rounds x (magnitude (x * u.millimetres) / magnitude u.millimetres)

variable {u}

/-- A number has finite millimetres unless they are too large. -/
theorem isFinite_mul_millimetres (finite : x.isFinite = true) :
    (x * u.millimetres).isFinite = true ↔ magnitude x * magnitude u.millimetres < limit :=
  Number.isFinite_mul_iff finite u.positive_millimetres u.full_millimetres

/-- What is kept is what comes back. -/
theorem keeps_iff (finite : x.isFinite = true) :
    u.Keeps x ↔ x * u.millimetres / u.millimetres = x := by
  rw [Number.mul_div_eq_iff finite u.positive_millimetres u.full_millimetres,
    isFinite_mul_millimetres finite]
  exact ⟨fun h => ⟨h.small, h.nearest⟩, fun h => ⟨h.1, h.2⟩⟩

/-- A number is kept if so many units are a number of millimetres. -/
theorem keeps_of_exact (hx : x.isFinite = true) (hy : y.isFinite = true)
    (exact : magnitude y = magnitude x * magnitude u.millimetres) : u.Keeps x :=
  (keeps_iff hx).2
    (Number.mul_div_of_exact hx u.positive_millimetres u.full_millimetres hy exact)

/-- A number is kept if its millimetres are not too large and have places finer than the
millimetres of its own places. -/
theorem keeps_of_fine (finite : x.isFinite = true)
    (small : magnitude x * magnitude u.millimetres < limit)
    (fine : (2 : ℚ) ^ exponent (x * u.millimetres) < magnitude u.millimetres * 2 ^ exponent x) :
    u.Keeps x :=
  (keeps_iff finite).2 (Number.mul_div_of_fine finite u.positive_millimetres u.full_millimetres
    u.one_le_millimetres ((isFinite_mul_millimetres finite).2 small) fine)

/-- Millimetres keep every number. -/
theorem keeps_mm (finite : x.isFinite = true) : mm.Keeps x := by
  refine keeps_of_exact finite finite ?_
  have one : magnitude mm.millimetres = 1 := by
    have bits : significand mm.millimetres = 2 ^ 52 := by decide
    have places : exponent mm.millimetres = -52 := by decide
    rw [magnitude, bits, places]
    norm_num
  rw [one, mul_one]

end UnitSystem

-- ================================================================ literals

theorem LiteralUnit.ofName?_name (u : UnitSystem) : ofName? u.name = some (.length u) := by
  cases u <;> decide +kernel

/-- A length in the unit of the part has a number, it is as it was exactly if it is kept,
and finite exactly if its millimetres are not too large. -/
theorem convert_own (own : LiteralUnit.ofName? name = some (.length u))
    (finite : x.isFinite = true) :
    ∃ y, convert x (some name) .length u = .ok y ∧ (y = x ↔ u.Keeps x)
      ∧ (y.isFinite = true ↔ magnitude x * magnitude u.millimetres < limit) := by
  refine ⟨x * u.millimetres / u.millimetres, ?_, (UnitSystem.keeps_iff finite).symm, ?_⟩
  · rw [convert_of_unit own]
    rfl
  · rw [← UnitSystem.isFinite_mul_millimetres finite]
    exact ⟨Number.isFinite_of_div,
      fun product => Number.isFinite_div product u.positive_millimetres u.one_le_millimetres⟩

theorem convert_own_eq_ok (own : LiteralUnit.ofName? name = some (.length u))
    (finite : x.isFinite = true) : convert x (some name) .length u = .ok x ↔ u.Keeps x := by
  obtain ⟨y, converted, same, -⟩ := convert_own own finite
  rw [converted, Except.ok.injEq, same]

-- ================================================================= scalars

namespace Scalar

/-- A scalar with bare numbers for the lengths in a unit system. -/
def bare (u : UnitSystem) : Scalar → Scalar
  | value x => value x
  | literal x none => literal x none
  | literal x (some name) =>
    if LiteralUnit.ofName? name = some (.length u) then value x else literal x (some name)
  | param id => param id
  | binary op left right => binary op (left.bare u) (right.bare u)
  | neg operand => neg (operand.bare u)

/-- All lengths in a scalar that are in a unit system are kept by it. -/
def Kept (u : UnitSystem) (s : Scalar) : Prop :=
  ∀ x name, (literal x (some name)).Within s → LiteralUnit.ofName? name = some (.length u) →
    x.isFinite = true ∧ u.Keeps x

theorem kept_value : (value x).Kept u := by
  intro y name within
  cases within

theorem kept_literal {unit : Option String} (finite : x.isFinite = true) (kept : u.Keeps x) :
    (literal x unit).Kept u := by
  intro y name within own
  cases within
  exact ⟨finite, kept⟩

/-- A length in the unit of the part comes to its bare number exactly if it is kept. -/
theorem eval_literal_own (own : LiteralUnit.ofName? name = some (.length table.units))
    (finite : x.isFinite = true) :
    (literal x (some name)).eval table .length = (value x).eval table .length
      ↔ table.units.Keeps x := by
  rw [← convert_own_eq_ok own finite, eval, eval]
  exact Checked.mapError_eq_ok

/-- Lengths that are kept can be replaced by bare numbers. -/
theorem eval_bare (kept : s.Kept table.units) :
    (s.bare table.units).eval table .length = s.eval table .length := by
  induction s with
  | value x => rfl
  | literal x unit =>
    cases unit with
    | none => rfl
    | some name =>
      rw [bare]
      split
      · next own =>
        obtain ⟨finite, keeps⟩ := kept x name (.here _) own
        exact ((eval_literal_own own finite).2 keeps).symm
      · rfl
  | param id => rfl
  | binary op left right ihl ihr =>
    rw [bare, eval, eval, ihl fun x name within => kept x name (.left within),
      ihr fun x name within => kept x name (.right within)]
  | neg operand ih => rw [bare, eval, eval, ih fun x name within => kept x name (.neg within)]

end Scalar
end PartPlan
