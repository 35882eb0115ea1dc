/-
Numbers as the quantities they are. A finite number is `± m · 2 ^ q` with `m`
and `q` read off its bits; here that quantity becomes a rational, and what the
format says of finite numbers, how they compare and which are whole, is said
of it.

The step from the format is `unpack_eq`: the fields the format unpacks are
those read off the bits. Sizes then compare exponents first, since above the
least exponent the leading bit of a significand is always set.
-/
import Mathlib.Algebra.Order.Field.Power
import Mathlib.Data.Rat.Cast.Order
import Mathlib.Order.Compare
import Mathlib.Tactic.NormNum
import Mathlib.Tactic.Positivity
import Mathlib.Tactic.Ring
import PartPlan.Number.Exact

namespace PartPlan.Number

open Float.Model (UnpackedFloat Format)

-- ================================================================ fields

/-- The sign of a number as the format names it. -/
def sign (x : Float) : UnpackedFloat.Sign := if isNegative x then .negative else .positive

variable {x y : Float}

theorem fractionField_eq (x : Float) : fractionField x = x.toBits.toNat % 2 ^ 52 := by
  show x.toBits.toNat % 2 ^ 63 % 2 ^ 52 = _
  omega

theorem exponentField_eq (x : Float) : exponentField x = x.toBits.toNat / 2 ^ 52 % 2 ^ 11 := by
  show x.toBits.toNat % 2 ^ 63 / 2 ^ 52 = _
  omega

theorem isNegative_iff (x : Float) : isNegative x = true ↔ x.toBits.toNat / 2 ^ 63 % 2 = 1 := by
  have := x.toBits.toNat_lt
  show decide (2 ^ 63 ≤ x.toBits.toNat) = true ↔ _
  rw [decide_eq_true_iff]
  omega

theorem toNat_unpackMantissa (x : Float) :
    (@UnpackedFloat.unpackMantissa .binary64 x.toModel.toBits.toBitVec).toNat
      = fractionField x := by
  rw [UnpackedFloat.unpackMantissa, BitVec.toNat_cast, BitVec.extractLsb_toNat,
    Nat.shiftRight_zero, fractionField_eq]
  rfl

theorem toNat_unpackExponent (x : Float) :
    (@UnpackedFloat.unpackExponent .binary64 x.toModel.toBits.toBitVec).toNat
      = exponentField x := by
  rw [UnpackedFloat.unpackExponent, BitVec.toNat_cast, BitVec.extractLsb_toNat,
    Nat.shiftRight_eq_div_pow, exponentField_eq]
  rfl

theorem ofBitVec_unpackSign (x : Float) :
    UnpackedFloat.Sign.ofBitVec
      (@UnpackedFloat.unpackSign .binary64 x.toModel.toBits.toBitVec) = sign x := by
  have bit : (@UnpackedFloat.unpackSign .binary64 x.toModel.toBits.toBitVec).toNat
      = x.toBits.toNat / 2 ^ 63 % 2 := by
    delta UnpackedFloat.unpackSign
    rw [BitVec.toNat_cast, BitVec.extractLsb_toNat, Nat.shiftRight_eq_div_pow]
    rfl
  unfold UnpackedFloat.Sign.ofBitVec sign
  have clear : @UnpackedFloat.unpackSign .binary64 x.toModel.toBits.toBitVec = 0#1
      ↔ ¬isNegative x = true := by
    rw [BitVec.toNat_eq, bit, isNegative_iff]
    show _ = 0 ↔ _
    omega
  by_cases negative : isNegative x = true
  · rw [if_neg fun h => clear.1 h negative, if_pos negative]
  · rw [if_pos (clear.2 negative), if_neg negative]

theorem unpackExponent_eq_top (x : Float) :
    @UnpackedFloat.unpackExponent .binary64 x.toModel.toBits.toBitVec = -1#11
      ↔ exponentField x = 2047 := by
  rw [← toNat_unpackExponent, BitVec.toNat_eq]
  rfl

theorem unpackExponent_eq_zero (x : Float) :
    @UnpackedFloat.unpackExponent .binary64 x.toModel.toBits.toBitVec = 0#11
      ↔ exponentField x = 0 := by
  rw [← toNat_unpackExponent, BitVec.toNat_eq]
  rfl

theorem unpackMantissa_eq_zero (x : Float) :
    @UnpackedFloat.unpackMantissa .binary64 x.toModel.toBits.toBitVec = 0#52
      ↔ fractionField x = 0 := by
  rw [← toNat_unpackMantissa, BitVec.toNat_eq]
  rfl

/-- The fraction of a normal number with the bit that is not stored. -/
theorem toNat_implicitBit_append (x : Float) :
    (1#1 ++ @UnpackedFloat.unpackMantissa .binary64 x.toModel.toBits.toBitVec).toNat
      = fractionField x + 2 ^ 52 := by
  rw [BitVec.toNat_append, ← toNat_unpackMantissa,
    ← Nat.shiftLeft_add_eq_or_of_lt (BitVec.isLt _)]
  exact Nat.add_comm _ _

theorem finite_congr {s : UnpackedFloat.Sign} {m m' : ℕ} {e e' : ℤ} (hm : m = m') (he : e = e')
    (p : 0 < m) (p' : 0 < m') : UnpackedFloat.finite s m e p = .finite s m' e' p' := by
  subst hm he
  rfl

/-- What the fields of a number stand for. -/
theorem unpack_eq (x : Float) :
    x.toModel.unpack =
      if exponentField x = 2047 then
        if fractionField x = 0 then .infinity (sign x) else .notANumber
      else if h : significand x = 0 then .zero (sign x)
      else .finite (sign x) (significand x) (exponent x) (Nat.pos_of_ne_zero h) := by
  have top := unpackExponent_eq_top x
  have bottom := unpackExponent_eq_zero x
  have none := unpackMantissa_eq_zero x
  have bias : Format.exponentBias Format.binary64 = 1023 := rfl
  unfold Float.Model.unpack UnpackedFloat.unpack
  dsimp only
  rw [ofBitVec_unpackSign]
  by_cases special : exponentField x = 2047
  · rw [if_pos (top.2 special), if_pos special]
    simp only [none]
  rw [if_neg (mt top.1 special), if_neg special]
  by_cases subnormal : exponentField x = 0
  · have size : significand x = fractionField x := if_pos subnormal
    rw [if_pos (bottom.2 subnormal)]
    by_cases nothing : fractionField x = 0
    · rw [dif_pos (none.2 nothing), dif_pos (size.trans nothing)]
    · rw [dif_neg (mt none.1 nothing), dif_neg (size ▸ nothing)]
      refine finite_congr ((toNat_unpackMantissa x).trans size.symm) ?_ _ _
      rw [toNat_unpackExponent, exponent, if_pos subnormal, subnormal, bias]
      rfl
  · have size : significand x = fractionField x + 2 ^ 52 := if_neg subnormal
    rw [if_neg (mt bottom.1 subnormal), dif_neg (by omega)]
    refine finite_congr ((toNat_implicitBit_append x).trans size.symm) ?_ _ _
    rw [toNat_unpackExponent, exponent, if_neg subnormal, bias]
    rfl

theorem isFinite_iff : x.isFinite = true ↔ exponentField x ≠ 2047 := by
  show x.toModel.unpack.isFinite = true ↔ _
  rw [unpack_eq]
  by_cases top : exponentField x = 2047
  · rw [if_pos top]
    by_cases infinite : fractionField x = 0
    · rw [if_pos infinite]
      exact iff_of_false Bool.false_ne_true (not_not_intro top)
    · rw [if_neg infinite]
      exact iff_of_false Bool.false_ne_true (not_not_intro top)
  · rw [if_neg top]
    by_cases nothing : significand x = 0
    · rw [dif_pos nothing]
      exact iff_of_true rfl top
    · rw [dif_neg nothing]
      exact iff_of_true rfl top

theorem isNaN_of_isFinite (h : x.isFinite = true) : x.isNaN = false := by
  have finite : x.toModel.unpack.isFinite = true := h
  show x.toModel.unpack.isNaN = false
  cases unpacked : x.toModel.unpack with
  | notANumber =>
    rw [unpacked] at finite
    cases finite
  | _ => rfl

-- ================================================================ values

/-- The size of a finite number. -/
def magnitude (x : Float) : ℚ := significand x * 2 ^ exponent x

/-- The quantity that a finite number is. -/
def value (x : Float) : ℚ := if isNegative x then -magnitude x else magnitude x

theorem significand_lt (x : Float) : significand x < 2 ^ 53 := by
  have := fractionField_eq x
  unfold significand
  split
  · omega
  · show fractionField x + 2 ^ 52 < _
    omega

theorem significand_eq_zero : significand x = 0 ↔ magnitudeBits x = 0 := by
  have whole : magnitudeBits x = 2 ^ 52 * exponentField x + fractionField x :=
    (Nat.div_add_mod _ _).symm
  unfold significand
  split
  · next subnormal =>
    rw [whole, subnormal]
    omega
  · next normal =>
    show fractionField x + 2 ^ 52 = 0 ↔ _
    omega

theorem exponent_ge (x : Float) : -1074 ≤ exponent x := by
  unfold exponent
  split
  · exact le_refl _
  · omega

/-- Above the least exponent the leading bit is set. -/
theorem le_significand (h : -1074 < exponent x) : 2 ^ 52 ≤ significand x := by
  unfold exponent at h
  unfold significand
  split at h
  · omega
  · next normal =>
    rw [if_neg normal]
    exact Nat.le_add_left _ _

theorem magnitude_nonneg (x : Float) : 0 ≤ magnitude x := by
  unfold magnitude
  positivity

theorem magnitude_eq_zero : magnitude x = 0 ↔ significand x = 0 := by
  unfold magnitude
  rw [mul_eq_zero, Nat.cast_eq_zero, or_iff_left (zpow_ne_zero _ two_ne_zero)]

theorem magnitude_pos (h : significand x ≠ 0) : 0 < magnitude x :=
  lt_of_le_of_ne (magnitude_nonneg x) fun same => h (magnitude_eq_zero.1 same.symm)

/-- A number with a larger exponent is larger. -/
theorem magnitude_lt_of_exponent_lt (h : exponent x < exponent y) : magnitude x < magnitude y := by
  have normal : 2 ^ 52 ≤ significand y := le_significand (lt_of_le_of_lt (exponent_ge x) h)
  have short : (significand x : ℚ) < 2 ^ 53 := by exact_mod_cast significand_lt x
  calc magnitude x
      < 2 ^ 53 * 2 ^ exponent x := mul_lt_mul_of_pos_right short (by positivity)
    _ = 2 ^ 52 * 2 ^ (exponent x + 1) := by
        rw [zpow_add_one₀ two_ne_zero]
        ring
    _ ≤ 2 ^ 52 * 2 ^ exponent y :=
        mul_le_mul_of_nonneg_left (zpow_le_zpow_right₀ one_le_two h) (by positivity)
    _ ≤ magnitude y := mul_le_mul_of_nonneg_right (by exact_mod_cast normal) (by positivity)

/-- Sizes are compared exponents first. -/
theorem compare_magnitude (x y : Float) :
    compare (magnitude x) (magnitude y)
      = (compare (exponent x) (exponent y)).then (compare (significand x) (significand y)) := by
  rcases lt_trichotomy (exponent x) (exponent y) with lower | same | higher
  · rw [compare_lt_iff_lt.2 lower, compare_lt_iff_lt.2 (magnitude_lt_of_exponent_lt lower)]
    rfl
  · rw [compare_eq_iff_eq.2 same, Ordering.then]
    unfold magnitude
    rw [same]
    have unit : (0 : ℚ) < 2 ^ exponent y := by positivity
    rcases lt_trichotomy (significand x) (significand y) with lower | same | higher
    · rw [compare_lt_iff_lt.2 lower, compare_lt_iff_lt]
      exact mul_lt_mul_of_pos_right (by exact_mod_cast lower) unit
    · rw [same, compare_eq_iff_eq.2 rfl, compare_eq_iff_eq.2 rfl]
    · rw [compare_gt_iff_gt.2 higher, compare_gt_iff_gt]
      exact mul_lt_mul_of_pos_right (by exact_mod_cast higher) unit
  · rw [compare_gt_iff_gt.2 higher, compare_gt_iff_gt.2 (magnitude_lt_of_exponent_lt higher)]
    rfl

theorem exponent_eq_and_significand_eq (h : magnitude x = magnitude y) :
    exponent x = exponent y ∧ significand x = significand y := by
  have same := compare_magnitude x y
  rw [compare_eq_iff_eq.2 h, eq_comm, Ordering.then_eq_eq, compare_eq_iff_eq, compare_eq_iff_eq]
    at same
  exact same

/-- The bits of a number are its sign and its size. -/
theorem eq_of_magnitude_eq (sign : isNegative x = isNegative y) (size : magnitude x = magnitude y) :
    x = y := by
  obtain ⟨exponents, significands⟩ := exponent_eq_and_significand_eq size
  have fx := fractionField_eq x
  have fy := fractionField_eq y
  have ex := exponentField_eq x
  have ey := exponentField_eq y
  have sx := x.toBits.toNat_lt
  have sy := y.toBits.toNat_lt
  have signs : x.toBits.toNat / 2 ^ 63 % 2 = 1 ↔ y.toBits.toNat / 2 ^ 63 % 2 = 1 := by
    rw [← isNegative_iff, ← isNegative_iff, sign]
  have fields : exponentField x = exponentField y ∧ fractionField x = fractionField y := by
    unfold exponent at exponents
    unfold significand at significands
    show _ ∧ _
    change (if exponentField x = 0 then _ else _ + 2 ^ 52)
      = (if exponentField y = 0 then _ else _ + 2 ^ 52) at significands
    split at significands
    · next subnormal =>
      rw [if_pos subnormal] at exponents
      split at significands
      · next subnormal' => exact ⟨subnormal.trans subnormal'.symm, significands⟩
      · omega
    · next normal =>
      rw [if_neg normal] at exponents
      split at significands
      · omega
      · next normal' =>
        rw [if_neg normal'] at exponents
        omega
  have bits : x.toBits = y.toBits := UInt64.toNat_inj.1 (by omega)
  obtain ⟨⟨bx, vx⟩⟩ := x
  obtain ⟨⟨by_, vy⟩⟩ := y
  cases bits
  rfl

theorem compare_neg (a b : ℚ) : compare (-a) (-b) = (compare a b).swap := by
  rcases lt_trichotomy a b with lower | rfl | higher
  · rw [compare_lt_iff_lt.2 lower, compare_gt_iff_gt.2 (neg_lt_neg lower), Ordering.swap]
  · rw [compare_eq_iff_eq.2 rfl, compare_eq_iff_eq.2 rfl, Ordering.swap]
  · rw [compare_gt_iff_gt.2 higher, compare_lt_iff_lt.2 (neg_lt_neg higher), Ordering.swap]

/-- A finite number is a zero, above zero or below zero. -/
theorem unpack_cases (h : x.isFinite = true) :
    ((∃ s, x.toModel.unpack = .zero s) ∧ value x = 0)
    ∨ ((∃ p, x.toModel.unpack = .finite .positive (significand x) (exponent x) p)
        ∧ value x = magnitude x ∧ 0 < magnitude x)
    ∨ ((∃ p, x.toModel.unpack = .finite .negative (significand x) (exponent x) p)
        ∧ value x = -magnitude x ∧ 0 < magnitude x) := by
  rw [unpack_eq, if_neg (isFinite_iff.1 h)]
  unfold value sign
  by_cases nothing : significand x = 0
  · refine .inl ⟨⟨_, dif_pos nothing⟩, ?_⟩
    rw [magnitude_eq_zero.2 nothing, neg_zero, ite_self]
  rw [dif_neg nothing]
  by_cases negative : isNegative x = true
  · rw [if_pos negative, if_pos negative]
    exact .inr (.inr ⟨⟨_, rfl⟩, rfl, magnitude_pos nothing⟩)
  · rw [if_neg negative, if_neg negative]
    exact .inr (.inl ⟨⟨_, rfl⟩, rfl, magnitude_pos nothing⟩)

/-- Finite numbers compare as their values do. -/
theorem compare_unpack (hx : x.isFinite = true) (hy : y.isFinite = true) :
    x.toModel.unpack.compare y.toModel.unpack = some (compare (value x) (value y)) := by
  rcases unpack_cases hx with ⟨⟨_, ux⟩, vx⟩ | ⟨⟨_, ux⟩, vx, px⟩ | ⟨⟨_, ux⟩, vx, px⟩ <;>
  rcases unpack_cases hy with ⟨⟨_, uy⟩, vy⟩ | ⟨⟨_, uy⟩, vy, py⟩ | ⟨⟨_, uy⟩, vy, py⟩ <;>
  rw [ux, uy, vx, vy]
  case inl.inl => exact congrArg some (compare_eq_iff_eq.2 rfl).symm
  case inl.inr.inl => exact congrArg some (compare_lt_iff_lt.2 py).symm
  case inl.inr.inr => exact congrArg some (compare_gt_iff_gt.2 (neg_lt_zero.2 py)).symm
  case inr.inl.inl => exact congrArg some (compare_gt_iff_gt.2 px).symm
  case inr.inl.inr.inl => exact congrArg some (compare_magnitude x y).symm
  case inr.inl.inr.inr =>
    exact congrArg some (compare_gt_iff_gt.2 ((neg_lt_zero.2 py).trans px)).symm
  case inr.inr.inl => exact congrArg some (compare_lt_iff_lt.2 (neg_lt_zero.2 px)).symm
  case inr.inr.inr.inl =>
    exact congrArg some (compare_lt_iff_lt.2 ((neg_lt_zero.2 px).trans py)).symm
  case inr.inr.inr.inr =>
    rw [compare_neg, compare_magnitude]
    rfl

theorem lt_iff (hx : x.isFinite = true) (hy : y.isFinite = true) : x < y ↔ value x < value y := by
  show decide (x.toModel.unpack.lt y.toModel.unpack = true) = true ↔ _
  rw [UnpackedFloat.lt, compare_unpack hx hy, decide_eq_true_iff, beq_iff_eq, Option.some.injEq,
    compare_lt_iff_lt]

theorem le_iff (hx : x.isFinite = true) (hy : y.isFinite = true) : x ≤ y ↔ value x ≤ value y := by
  show decide (x.toModel.unpack.le y.toModel.unpack = true) = true ↔ _
  rw [UnpackedFloat.le, compare_unpack hx hy, decide_eq_true_iff, Option.any_some,
    Ordering.isLE_iff_ne_gt, compare_gt_iff_gt, not_lt]

theorem beq_iff (hx : x.isFinite = true) (hy : y.isFinite = true) :
    (x == y) = true ↔ value x = value y := by
  show x.toModel.unpack.beq y.toModel.unpack = true ↔ _
  delta UnpackedFloat.beq
  rw [compare_unpack hx hy, beq_iff_eq, Option.some.injEq, compare_eq_iff_eq]

-- =============================================================== integers

theorem magnitude_mul (x : Float) (k : ℕ) (h : exponent x = -k) :
    magnitude x * 2 ^ k = significand x := by
  unfold magnitude
  rw [h, zpow_neg, zpow_natCast, mul_assoc, inv_mul_cancel₀ (by positivity), mul_one]

theorem isWhole_iff_magnitude : isWhole x = true ↔ ∃ n : ℕ, magnitude x = n := by
  unfold isWhole
  by_cases whole : 0 ≤ exponent x
  · rw [if_pos whole]
    refine ⟨fun _ => ⟨significand x * 2 ^ (exponent x).toNat, ?_⟩, fun _ => rfl⟩
    unfold magnitude
    push_cast
    rw [← zpow_natCast, Int.toNat_of_nonneg whole]
  · rw [if_neg whole, decide_eq_true_iff]
    have scaled := magnitude_mul x (exponent x).natAbs (by omega)
    show significand x % 2 ^ (exponent x).natAbs = 0 ↔ _
    rw [← Nat.dvd_iff_mod_eq_zero]
    constructor
    · intro h
      obtain ⟨n, hn⟩ := h
      refine ⟨n, ?_⟩
      have unit : (0 : ℚ) < 2 ^ (exponent x).natAbs := by positivity
      refine mul_right_cancel₀ unit.ne' ?_
      rw [scaled, hn]
      push_cast
      ring
    · intro h
      obtain ⟨n, hn⟩ := h
      rw [hn] at scaled
      exact ⟨n, by rw [Nat.mul_comm]; exact_mod_cast scaled.symm⟩

theorem isWhole_iff : isWhole x = true ↔ ∃ n : ℤ, value x = n := by
  rw [isWhole_iff_magnitude]
  have size := magnitude_nonneg x
  unfold value
  constructor
  · intro h
    obtain ⟨n, hn⟩ := h
    rw [hn]
    split
    · exact ⟨-n, by push_cast; rfl⟩
    · exact ⟨n, by push_cast; rfl⟩
  · intro h
    have same : ∃ n : ℤ, magnitude x = n := by
      obtain ⟨n, hn⟩ := h
      split at hn
      · exact ⟨-n, by rw [neg_eq_iff_eq_neg.1 hn]; push_cast; rfl⟩
      · exact ⟨n, hn⟩
    obtain ⟨n, hn⟩ := same
    rw [hn] at size
    obtain ⟨k, rfl⟩ := Int.eq_ofNat_of_zero_le (Int.cast_nonneg_iff.1 size)
    exact ⟨k, hn⟩

/-- The whole numbers from `k` upwards are the natural numbers from there. -/
theorem isWhole_and_le_iff {k : ℕ} :
    isWhole x = true ∧ (k : ℚ) ≤ value x ↔ ∃ n : ℕ, k ≤ n ∧ value x = n := by
  rw [isWhole_iff]
  constructor
  · intro h
    obtain ⟨⟨n, hn⟩, above⟩ := h
    rw [hn] at above
    have above : (k : ℤ) ≤ n := by exact_mod_cast above
    obtain ⟨m, rfl⟩ := Int.eq_ofNat_of_zero_le (le_trans (Int.natCast_nonneg k) above)
    exact ⟨m, by exact_mod_cast above, hn⟩
  · intro h
    obtain ⟨n, above, hn⟩ := h
    rw [hn]
    exact ⟨⟨n, rfl⟩, by exact_mod_cast above⟩

theorem isFinite_zero : (0 : Float).isFinite = true := by decide

theorem value_zero : value 0 = 0 := by
  have : significand 0 = 0 := by decide
  unfold value
  rw [magnitude_eq_zero.2 this]
  simp

theorem isFinite_one : (Float.ofNat 1).isFinite = true := by decide

theorem value_one : value (Float.ofNat 1) = (1 : ℕ) := by
  have m : significand (Float.ofNat 1) = 2 ^ 52 := by decide
  have e : exponent (Float.ofNat 1) = -52 := by decide
  have s : isNegative (Float.ofNat 1) = false := by decide
  unfold value magnitude
  rw [m, e, s]
  norm_num

theorem isFinite_three : (Float.ofNat 3).isFinite = true := by decide

theorem value_three : value (Float.ofNat 3) = (3 : ℕ) := by
  have m : significand (Float.ofNat 3) = 3 * 2 ^ 51 := by decide
  have e : exponent (Float.ofNat 3) = -51 := by decide
  have s : isNegative (Float.ofNat 3) = false := by decide
  unfold value magnitude
  rw [m, e, s]
  norm_num

end PartPlan.Number
