/-
The value of a literal. To a reader that rounds to the nearest number, a literal
that stands for a number has that number for its value, bit for bit: of the
quantities that round to a number none is so large or so small that its literal is
cut short, and the others are rounded once. An integer of 64 bits is the value of
its own digits to every reader.

The other way round, the integers that literals have for values are of 64 bits, and
such an integer is finite as a binary64 number.
-/
import PartPlan.Proofs.Json.Number
import PartPlan.Proofs.Number.Scientific

namespace PartPlan.Number

open Float.Model (UnpackedFloat pack)
open Float.Model.UnpackedFloat (Sign)

variable {x y : Float} {l : Literal}

-- ================================================================== signs

theorem unpack_zero_or_positive (finite : x.isFinite = true) (sign : isNegative x = false) :
    x.toModel.unpack = .zero .positive ∧ significand x = 0 ∨ Positive x := by
  by_cases none : significand x = 0
  · refine .inl ⟨?_, none⟩
    rw [unpack_eq, if_neg (isFinite_iff.1 finite), dif_pos none]
    unfold Number.sign
    rw [if_neg (by rw [sign]; decide)]
  · exact .inr ⟨finite, sign, Nat.pos_of_ne_zero none⟩

/-- The negative of a number has its size. -/
theorem neg_eq (finite : x.isFinite = true) (sign : isNegative x = false) :
    (-x).isFinite = true ∧ isNegative (-x) = true ∧ magnitude (-x) = magnitude x := by
  have negative {y : Float} (h : Number.sign y = .negative) : isNegative y = true := by
    unfold Number.sign at h
    by_contra other
    rw [if_neg other] at h
    cases h
  rcases unpack_zero_or_positive finite sign with ⟨unpacked, none⟩ | positive
  · have packed : (-x).toModel = pack (.zero .negative) := by
      show pack (UnpackedFloat.neg x.toModel.unpack) = _
      rw [unpacked]
      rfl
    obtain ⟨finite', sign', none', -⟩ := of_pack_zero packed
    exact ⟨finite', negative sign', by rw [magnitude_eq_zero.2 none, magnitude_eq_zero.2 none']⟩
  · have packed : (-x).toModel
        = pack (.finite .negative (significand x) (exponent x) positive.some) := by
      show pack (UnpackedFloat.neg x.toModel.unpack) = _
      rw [positive.unpack]
      rfl
    have place : 2 ^ 52 ≤ significand x ∧ -1074 ≤ exponent x ∨ exponent x = -1074 := by
      rcases (exponent_ge x).eq_or_lt with least | above
      · exact .inr least.symm
      · exact .inl ⟨le_significand above, above.le⟩
    obtain ⟨finite', sign', m, e⟩ :=
      of_pack_finite (significand_lt x) place (exponent_le finite) packed
    refine ⟨finite', negative sign', ?_⟩
    unfold magnitude
    rw [m, e]

/-- A number is its size with its sign. -/
theorem withSign_eq (finite : y.isFinite = true) (sign : isNegative y = false)
    (size : magnitude y = magnitude x) : withSign (isNegative x) y = x := by
  unfold withSign
  by_cases negative : isNegative x = true
  · obtain ⟨-, sign', size'⟩ := neg_eq finite sign
    rw [if_pos negative]
    exact eq_of_magnitude_eq (sign'.trans negative.symm) (size'.trans size)
  · rw [if_neg negative]
    exact eq_of_magnitude_eq (sign.trans (Bool.eq_false_iff.2 negative).symm) size

-- ================================================================== sizes

/-- What rounds to a number other than zero is not tiny. -/
theorem Rounds.ge {q : ℚ} (h : Rounds x q) (some : significand x ≠ 0) : 10 ^ (-400 : ℤ) < q := by
  have steps : (1 : ℚ) ≤ ((4 * significand x - quartersBelow x : ℕ) : ℚ) := by
    have : 1 ≤ 4 * significand x - quartersBelow x := by
      unfold quartersBelow
      split <;> omega
    exact_mod_cast this
  calc (10 : ℚ) ^ (-400 : ℤ) = (10 ^ 400)⁻¹ := by rw [zpow_neg, zpow_ofNat]
    _ < ((2 ^ 3) ^ 400)⁻¹ :=
        inv_strictAnti₀ (by positivity) (pow_lt_pow_left₀ (by norm_num) (by norm_num) (by decide))
    _ = 2 ^ (-1200 : ℤ) := by rw [← pow_mul, zpow_neg, zpow_ofNat]
    _ ≤ quarter x := zpow_le_zpow_right₀ one_le_two (by have := exponent_ge x; omega)
    _ ≤ ((4 * significand x - quartersBelow x : ℕ) : ℚ) * quarter x :=
        le_mul_of_one_le_left (quarter_pos x).le steps
    _ ≤ q := h.bounds.1

/-- The power of ten above a literal. -/
def Literal.size (l : Literal) : ℤ := (Nat.toDigits 10 l.digits).length + l.exponent

theorem Literal.magnitude_bounds (some : l.digits ≠ 0) :
    10 ^ (l.size - 1) ≤ l.magnitude ∧ l.magnitude < 10 ^ l.size := by
  have unit : (0 : ℚ) < 10 ^ l.exponent := by positivity
  have given : 0 < (Nat.toDigits 10 l.digits).length := Nat.length_toDigits_pos
  have high : l.digits < 10 ^ (Nat.toDigits 10 l.digits).length :=
    (Nat.length_toDigits_le_iff (by decide) given).1 (le_refl _)
  have low : 10 ^ ((Nat.toDigits 10 l.digits).length - 1) ≤ l.digits := by
    by_cases single : (Nat.toDigits 10 l.digits).length = 1
    · rw [single]
      exact Nat.pos_of_ne_zero some
    · refine not_lt.1 fun less => ?_
      have := (Nat.length_toDigits_le_iff (b := 10) (by decide) (by omega)).2 less
      omega
  have high : (l.digits : ℚ) < 10 ^ ((Nat.toDigits 10 l.digits).length : ℤ) := by
    exact_mod_cast high
  have low : (10 : ℚ) ^ ((Nat.toDigits 10 l.digits).length - 1 : ℤ) ≤ l.digits := by
    rw [show ((Nat.toDigits 10 l.digits).length - 1 : ℤ)
      = (((Nat.toDigits 10 l.digits).length - 1 : ℕ) : ℤ) by omega]
    exact_mod_cast low
  unfold size magnitude
  rw [add_sub_right_comm, zpow_add₀ (by norm_num), zpow_add₀ (by norm_num)]
  exact ⟨mul_le_mul_of_nonneg_right low unit.le, mul_lt_mul_of_pos_right high unit⟩

/-- A literal that stands for a number has it for its value. -/
theorem Literal.toFloat?_eq (finite : x.isFinite = true) (sign : l.negative = isNegative x)
    (rounds : Rounds x l.magnitude) : l.toFloat? = some x := by
  have zero (none : significand x = 0) : withSign l.negative 0.0 = x := by
    rw [sign]
    refine withSign_eq (by decide) (by decide) ?_
    rw [magnitude_eq_zero.2 none]
    exact magnitude_eq_zero.2 (by decide)
  unfold Literal.toFloat?
  rw [show ((Nat.toDigits 10 l.digits).length : ℤ) + l.exponent = l.size from rfl]
  dsimp only
  by_cases nothing : l.digits = 0
  · rw [if_pos (.inl nothing), zero]
    by_contra some
    have := rounds.pos some
    simp [magnitude, nothing] at this
  obtain ⟨low, high⟩ := magnitude_bounds nothing
  by_cases tiny : l.size < -400
  · rw [if_pos (.inr tiny), zero]
    by_contra some
    have := (rounds.ge some).trans high
    rw [zpow_lt_zpow_iff_right₀ (by norm_num)] at this
    omega
  rw [if_neg (by simp [nothing, tiny])]
  have small : ¬400 < l.size := by
    intro large
    have power : (10 : ℚ) ^ 400 ≤ 10 ^ (l.size - 1) := by
      rw [← zpow_ofNat]
      exact zpow_le_zpow_right₀ (by norm_num) (by omega)
    exact absurd (rounds.lt_limit finite) (not_lt.2 (limit_le.trans (power.trans low)))
  have near := nearest_ofScientific (Nat.pos_of_ne_zero nothing) l.exponent
  obtain ⟨finite', size⟩ := near.magnitude_eq finite rounds
  rw [if_neg small, sign, withSign_eq finite' near.positive size]
  exact if_pos finite

-- =========================================================== finite numbers

/-- A natural number of 64 bits is rounded to a finite number. -/
theorem isFinite_ofNat {n : ℕ} (small : n < 2 ^ 64) :
    (Float.ofNat n).isFinite = true ∧ isNegative (Float.ofNat n) = false := by
  by_cases none : n = 0
  · rw [none]
    decide
  have near : Nearest (Float.ofNat n) (n * 10 ^ (0 : ℤ)) :=
    nearest_ofScientific (Nat.pos_of_ne_zero none) 0
  refine ⟨?_, near.positive⟩
  by_contra infinite
  have large := near.large (Bool.eq_false_iff.2 infinite)
  have small : (n : ℚ) < 2 ^ 64 := by exact_mod_cast small
  have below : (2 : ℚ) ^ 64 ≤ limit := by
    unfold limit
    calc (2 : ℚ) ^ 64 ≤ 2 ^ (970 : ℤ) := by
          rw [← zpow_natCast]
          exact zpow_le_zpow_right₀ one_le_two (by decide)
      _ ≤ (2 ^ 54 - 1) * 2 ^ (970 : ℤ) := le_mul_of_one_le_left (by positivity) (by norm_num)
  rw [zpow_zero, mul_one] at large
  exact absurd (large.trans_lt small) (not_lt.2 below)

end PartPlan.Number

namespace PartPlan.Json.Token

open Number

variable {x : Float} {l : Literal}

/-- To a reader that rounds to the nearest number, the literal of a number has the
number for its value. -/
theorem literalValue_of_standsFor (finite : x.isFinite = true) (stands : StandsFor l x) :
    literalValue .nearest l = .num x := by
  have notWhole : l.toInt64? = none := by
    unfold Literal.toInt64?
    rw [stands.whole]
    rfl
  unfold literalValue Rounding.nearest
  rw [notWhole]
  dsimp only
  rw [Literal.toFloat?_eq finite stands.negative stands.rounds]
  rfl

/-- An integer that 64 bits can hold, with a sign or without one. -/
def IsInt64 (n : ℤ) : Prop := -2 ^ 63 ≤ n ∧ n < 2 ^ 64

theorem literalValue_int (r : Rounding) {n : ℤ} (fits : IsInt64 n) :
    literalValue r ⟨decide (n < 0), n.natAbs, 0, 0, true⟩ = .int n := by
  have value : Literal.toInt64? ⟨decide (n < 0), n.natAbs, 0, 0, true⟩ = some n := by
    obtain ⟨low, high⟩ := fits
    show (if (!true) = true then none else if decide (n < 0) = true then
      (if n.natAbs = 0 ∨ 2 ^ 63 < n.natAbs then none else some (-(n.natAbs : ℤ)))
      else if n.natAbs < 2 ^ 64 then some (n.natAbs : ℤ) else none) = some n
    rw [if_neg (by decide)]
    by_cases negative : n < 0
    · rw [if_pos (decide_eq_true negative), if_neg (by omega),
        Int.ofNat_natAbs_of_nonpos negative.le, neg_neg]
    · rw [if_neg (by simpa using negative), if_pos (by omega),
        Int.natAbs_of_nonneg (not_lt.1 negative)]
  unfold literalValue
  rw [value]

theorem isInt64_of_toInt64? {n : ℤ} (h : l.toInt64? = some n) : IsInt64 n := by
  unfold Literal.toInt64? at h
  unfold IsInt64
  split at h
  · cases h
  split at h
  · split at h
    · cases h
    · next fits =>
      cases h
      have fits : ¬2 ^ 63 < l.digits := fun large => fits (.inr large)
      omega
  · split at h
    · next fits =>
      cases h
      have fits : l.digits < 2 ^ 64 := fits
      omega
    · cases h

/-- An integer of 64 bits is rounded to a finite number. -/
theorem IsInt64.isFinite_ofInt {n : ℤ} (fits : IsInt64 n) : (Float.ofInt n).isFinite = true := by
  obtain ⟨low, high⟩ := fits
  cases n with
  | ofNat n =>
    have small : (n : ℤ) < 2 ^ 64 := high
    exact (isFinite_ofNat (by omega)).1
  | negSucc n =>
    obtain ⟨finite, sign⟩ := isFinite_ofNat (n := n.succ) (by omega)
    exact (neg_eq finite sign).1

end PartPlan.Json.Token
