/-
The order of numbers, infinities and NaN included. Every number but NaN has an order
key, and two numbers compare as their keys do (`lt_iff_orderKey`, `beq_iff_orderKey`);
NaN compares with nothing.

Infinities are no exception. Read off its bits like that of a finite number, the size of
an infinity is above that of every finite number, so comparison finds an infinity where
its `value` is. What is left is that sizes compare as the bits without the sign do.
-/
import PartPlan.Proofs.Number.Nearest

namespace PartPlan.Number

open Float.Model (UnpackedFloat)

variable {x y : Float} {a b : ℤ}

-- ================================================================== sizes

theorem magnitudeBits_eq (x : Float) :
    magnitudeBits x = 2 ^ 52 * exponentField x + fractionField x :=
  (Nat.div_add_mod _ _).symm

/-- The bits of a larger size are larger. -/
theorem magnitude_lt_of_bits_lt (h : magnitudeBits x < magnitudeBits y) :
    magnitude x < magnitude y := by
  have wx := magnitudeBits_eq x
  have wy := magnitudeBits_eq y
  have fx : fractionField x < 2 ^ 52 := Nat.mod_lt _ (by decide)
  have fy : fractionField y < 2 ^ 52 := Nat.mod_lt _ (by decide)
  have fields : exponent x < exponent y ∨ exponent x = exponent y ∧ significand x < significand y := by
    unfold exponent significand
    show _ ∨ _ ∧ (if exponentField x = 0 then _ else _ + 2 ^ 52)
      < (if exponentField y = 0 then _ else _ + 2 ^ 52)
    split <;> split <;> omega
  rw [← compare_lt_iff_lt, compare_magnitude]
  rcases fields with lower | ⟨same, lower⟩
  · rw [compare_lt_iff_lt.2 lower]
    rfl
  · rw [compare_eq_iff_eq.2 same, compare_lt_iff_lt.2 lower]
    rfl

theorem magnitude_eq_of_bits_eq (h : magnitudeBits x = magnitudeBits y) :
    magnitude x = magnitude y := by
  have exponents : exponentField x = exponentField y := by
    unfold exponentField
    rw [h]
  have fractions : fractionField x = fractionField y := by
    unfold fractionField
    rw [h]
  unfold magnitude significand exponent
  rw [exponents, fractions]

theorem magnitude_lt_iff : magnitude x < magnitude y ↔ magnitudeBits x < magnitudeBits y := by
  refine ⟨fun h => ?_, magnitude_lt_of_bits_lt⟩
  rcases lt_trichotomy (magnitudeBits x) (magnitudeBits y) with lower | same | higher
  · exact lower
  · exact absurd (magnitude_eq_of_bits_eq same) h.ne
  · exact absurd (magnitude_lt_of_bits_lt higher) h.asymm

-- =================================================================== keys

theorem orderKey_eq_none : orderKey x = none ↔ x.isNaN = true := by
  unfold orderKey
  cases x.isNaN <;> cases isNegative x <;> simp

theorem orderKey_eq_some :
    orderKey x = some a
      ↔ x.isNaN = false ∧ a = if isNegative x then -(magnitudeBits x : ℤ) else magnitudeBits x := by
  unfold orderKey
  cases x.isNaN <;> cases isNegative x <;> simp [eq_comm]

theorem exists_orderKey (number : x.isNaN = false) : ∃ k, orderKey x = some k := by
  cases key : orderKey x with
  | none =>
    rw [orderKey_eq_none.1 key] at number
    cases number
  | some k => exact ⟨k, rfl⟩

/-- Values compare as keys do. That of an infinity is the one its bits would have if
it were finite. -/
theorem value_lt_iff_of_orderKey (hx : orderKey x = some a) (hy : orderKey y = some b) :
    value x < value y ↔ a < b := by
  obtain ⟨-, rfl⟩ := orderKey_eq_some.1 hx
  obtain ⟨-, rfl⟩ := orderKey_eq_some.1 hy
  have sizes : magnitude x < magnitude y ↔ magnitudeBits x < magnitudeBits y := magnitude_lt_iff
  have sizes' : magnitude y < magnitude x ↔ magnitudeBits y < magnitudeBits x := magnitude_lt_iff
  have zero (z : Float) : 0 < magnitude z ↔ 0 < magnitudeBits z := by
    rw [(magnitude_nonneg z).lt_iff_ne', ne_eq, magnitude_eq_zero, significand_eq_zero,
      Nat.pos_iff_ne_zero]
  have nonneg := magnitude_nonneg
  unfold value
  cases isNegative x with
  | false =>
    cases isNegative y with
    | false => simpa using sizes
    | true =>
      have := nonneg x
      have := nonneg y
      simp only [Bool.false_eq_true, if_false, if_true]
      exact iff_of_false (by linarith) (by omega)
  | true =>
    cases isNegative y with
    | false =>
      -- below zero and above: the two are the same only if both are zero
      have apart : -magnitude x < magnitude y ↔ 0 < magnitude x ∨ 0 < magnitude y := by
        have := nonneg x
        have := nonneg y
        constructor
        · intro h
          by_contra none
          rw [not_or, not_lt, not_lt] at none
          linarith
        · rintro (h | h)
          · linarith
          · linarith
      simp only [Bool.false_eq_true, if_false, if_true]
      rw [apart, zero x, zero y]
      omega
    | true => simpa using sizes'

theorem compare_value_of_orderKey (hx : orderKey x = some a) (hy : orderKey y = some b) :
    compare (value x) (value y) = compare a b := by
  rcases lt_trichotomy a b with lower | same | higher
  · rw [compare_lt_iff_lt.2 lower, compare_lt_iff_lt.2 ((value_lt_iff_of_orderKey hx hy).2 lower)]
  · have above := mt (value_lt_iff_of_orderKey hx hy).1 same.not_lt
    have below := mt (value_lt_iff_of_orderKey hy hx).1 same.not_gt
    rw [compare_eq_iff_eq.2 same, compare_eq_iff_eq.2 (le_antisymm (not_lt.1 below) (not_lt.1 above))]
  · rw [compare_gt_iff_gt.2 higher, compare_gt_iff_gt.2 ((value_lt_iff_of_orderKey hy hx).2 higher)]

-- ============================================================= comparison

/-- The size that is read off an infinity. -/
def infiniteSize : ℚ := 2 ^ 52 * 2 ^ (972 : ℤ)

theorem infiniteSize_pos : 0 < infiniteSize := by
  unfold infiniteSize
  positivity

/-- What is neither finite nor NaN is an infinity. -/
theorem unpack_infinite (number : x.isNaN = false) (infinite : ¬ x.isFinite = true) :
    x.toModel.unpack = .infinity (sign x) ∧ magnitude x = infiniteSize := by
  have top : exponentField x = 2047 := by
    by_contra other
    exact infinite (isFinite_iff.2 other)
  have nothing : fractionField x = 0 := by
    by_contra payload
    have isNaN : x.toModel.unpack.isNaN = false := number
    rw [unpack_eq, if_pos top, if_neg payload] at isNaN
    cases isNaN
  refine ⟨?_, ?_⟩
  · rw [unpack_eq, if_pos top, if_pos nothing]
  · unfold magnitude significand exponent
    rw [top, nothing]
    norm_num [infiniteSize]

/-- It is above the size of every finite number. -/
theorem magnitude_lt_infinite (h : x.isFinite = true) : magnitude x < infiniteSize := by
  have short : (significand x : ℚ) < 2 ^ 53 := by exact_mod_cast significand_lt x
  calc magnitude x
      < 2 ^ 53 * 2 ^ exponent x := mul_lt_mul_of_pos_right short (by positivity)
    _ ≤ 2 ^ 53 * 2 ^ (971 : ℤ) :=
        mul_le_mul_of_nonneg_left (zpow_le_zpow_right₀ one_le_two (exponent_le h)) (by positivity)
    _ = infiniteSize := by
        rw [infiniteSize, show (972 : ℤ) = 971 + 1 by decide, zpow_add_one₀ two_ne_zero]
        ring

/-- A finite number lies between the infinities. -/
theorem value_between (h : x.isFinite = true) :
    -infiniteSize < value x ∧ value x < infiniteSize := by
  have := magnitude_nonneg x
  have := magnitude_lt_infinite h
  unfold value
  split
  · exact ⟨by linarith, by linarith⟩
  · exact ⟨by linarith, by linarith⟩

/-- A finite number is on one side of an infinity. -/
theorem compare_infinity (h : x.isFinite = true) (y : Float) :
    x.toModel.unpack.compare (.infinity (sign y)) = some (if isNegative y then .gt else .lt)
      ∧ (UnpackedFloat.infinity (sign y)).compare x.toModel.unpack
        = some (if isNegative y then .lt else .gt) := by
  unfold sign
  rcases unpack_cases h with ⟨⟨_, ux⟩, -⟩ | ⟨⟨_, ux⟩, -⟩ | ⟨⟨_, ux⟩, -⟩
  · rw [ux]
    cases isNegative y <;> exact ⟨rfl, rfl⟩
  · rw [ux]
    cases isNegative y <;> exact ⟨rfl, rfl⟩
  · rw [ux]
    cases isNegative y <;> exact ⟨rfl, rfl⟩

/-- Numbers other than NaN compare as their values do. -/
theorem compare_unpack_of_number (hx : x.isNaN = false) (hy : y.isNaN = false) :
    x.toModel.unpack.compare y.toModel.unpack = some (compare (value x) (value y)) := by
  have infinite (z : Float) (size : magnitude z = infiniteSize) :
      value z = if isNegative z then -infiniteSize else infiniteSize := by rw [value, size]
  by_cases fx : x.isFinite = true
  · by_cases fy : y.isFinite = true
    · exact compare_unpack fx fy
    · obtain ⟨uy, size⟩ := unpack_infinite hy fy
      obtain ⟨low, high⟩ := value_between fx
      rw [uy, (compare_infinity fx y).1, infinite y size]
      cases isNegative y with
      | true => exact congrArg some (compare_gt_iff_gt.2 low).symm
      | false => exact congrArg some (compare_lt_iff_lt.2 high).symm
  · obtain ⟨ux, size⟩ := unpack_infinite hx fx
    by_cases fy : y.isFinite = true
    · obtain ⟨low, high⟩ := value_between fy
      rw [ux, (compare_infinity fy x).2, infinite x size]
      cases isNegative x with
      | true => exact congrArg some (compare_lt_iff_lt.2 low).symm
      | false => exact congrArg some (compare_gt_iff_gt.2 high).symm
    · obtain ⟨uy, size'⟩ := unpack_infinite hy fy
      have wide : -infiniteSize < infiniteSize := by
        have := infiniteSize_pos
        linarith
      rw [ux, uy, infinite x size, infinite y size', sign, sign]
      cases isNegative x with
      | true =>
        cases isNegative y with
        | true => exact congrArg some (compare_eq_iff_eq.2 rfl).symm
        | false => exact congrArg some (compare_lt_iff_lt.2 wide).symm
      | false =>
        cases isNegative y with
        | true => exact congrArg some (compare_gt_iff_gt.2 wide).symm
        | false => exact congrArg some (compare_eq_iff_eq.2 rfl).symm

theorem compare_unpack_of_isNaN (h : x.isNaN = true ∨ y.isNaN = true) :
    x.toModel.unpack.compare y.toModel.unpack = none := by
  have isNaN {z : Float} (h : z.isNaN = true) : z.toModel.unpack = .notANumber := by
    have unordered : z.toModel.unpack.isNaN = true := h
    cases unpacked : z.toModel.unpack with
    | notANumber => rfl
    | _ =>
      rw [unpacked] at unordered
      cases unordered
  rcases h with h | h
  · rw [isNaN h]
    cases y.toModel.unpack <;> rfl
  · rw [isNaN h]
    cases x.toModel.unpack with
    | finite s => cases s <;> rfl
    | infinity s => cases s <;> rfl
    | _ => rfl

/-- Two numbers are in an order if both have a key, and then in that of the keys. -/
theorem compare_unpack_eq_some {o : Ordering} :
    x.toModel.unpack.compare y.toModel.unpack = some o
      ↔ ∃ a b, orderKey x = some a ∧ orderKey y = some b ∧ compare a b = o := by
  cases kx : orderKey x with
  | none =>
    rw [compare_unpack_of_isNaN (.inl (orderKey_eq_none.1 kx))]
    simp
  | some a =>
    cases ky : orderKey y with
    | none =>
      rw [compare_unpack_of_isNaN (.inr (orderKey_eq_none.1 ky))]
      simp
    | some b =>
      rw [compare_unpack_of_number (orderKey_eq_some.1 kx).1 (orderKey_eq_some.1 ky).1,
        compare_value_of_orderKey kx ky]
      simp

theorem lt_iff_orderKey :
    x < y ↔ ∃ a b, orderKey x = some a ∧ orderKey y = some b ∧ a < b := by
  show decide (x.toModel.unpack.lt y.toModel.unpack = true) = true ↔ _
  rw [UnpackedFloat.lt, decide_eq_true_iff, beq_iff_eq, compare_unpack_eq_some]
  simp only [compare_lt_iff_lt]

theorem beq_iff_orderKey :
    (x == y) = true ↔ ∃ a, orderKey x = some a ∧ orderKey y = some a := by
  show x.toModel.unpack.beq y.toModel.unpack = true ↔ _
  delta UnpackedFloat.beq
  rw [beq_iff_eq, compare_unpack_eq_some]
  simp only [compare_eq_iff_eq]
  constructor
  · rintro ⟨a, b, hx, hy, rfl⟩
    exact ⟨a, hx, hy⟩
  · rintro ⟨a, hx, hy⟩
    exact ⟨a, a, hx, hy, rfl⟩

end PartPlan.Number
