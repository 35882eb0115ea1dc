/-
A decimal is read as the number nearest to it. A short decimal is one product or
one quotient of two numbers that are exact, a long one a product or a quotient of
natural numbers; either way the exact quantity is rounded once, with enough bits
to round from. So a number is read back from any decimal that rounds to it.
-/
import PartPlan.Number.Literal
import PartPlan.Proofs.Number.Nearest

namespace PartPlan.Number

open Float.Model (UnpackedFloat Format totalExponent pack)
open Float.Model.UnpackedFloat (ExtendedMantissa Sign)

variable {x y : Float} {q : ℚ}

-- ===================================================== products and quotients

section Products

variable {a b : ℕ} {e f : ℤ}

/-- An exact quantity with enough bits is rounded to a nearest number. -/
theorem nearest_exact (some : a ≠ 0) (fits : 52 ≤ a.log2 ∨ e ≤ -1074)
    (packed : x.toModel = pack (UnpackedFloat.roundWithAccuracy .binary64 .positive a e .exact)) :
    Nearest x (a * 2 ^ e) := by
  have unit : (0 : ℚ) < 2 ^ e := zpow_pos two_pos _
  have positive : (0 : ℚ) < a := by exact_mod_cast Nat.pos_of_ne_zero some
  refine nearest_roundWithAccuracy (mul_pos positive unit) ?_ fits packed
  rw [mul_div_cancel_right₀ _ unit.ne']
  exact approximates_exact a

/-- The exponent to which a quotient is taken. -/
def quotientPlace (a : ℕ) (e : ℤ) (b : ℕ) (f : ℤ) : ℤ :=
  min (e - f) (max (a.log2 + e - (b.log2 + f) - 53) (-1074))

theorem div_finite (positive : 0 < a) (positive' : 0 < b) :
    UnpackedFloat.div .binary64 (.finite .positive a e positive) (.finite .positive b f positive')
      = UnpackedFloat.roundWithAccuracy .binary64 .positive
          ((a <<< (e - f - quotientPlace a e b f).toNat) / b) (quotientPlace a e b f)
          (UnpackedFloat.accuracyOfFraction ((a <<< (e - f - quotientPlace a e b f).toNat) % b) b)
    := by
  have place : quotientPlace a e b f
      = min (e - f) (Format.binary64.targetExponent (totalExponent a e - totalExponent b f)) := by
    show _ = min (e - f) (max ((a.log2 : ℤ) + 1 + e - (b.log2 + 1 + f) - (1 + 52 : ℕ))
      (3 - 2 ^ (11 - 1) - (1 + 52 : ℕ)))
    unfold quotientPlace
    norm_num
    omega
  rw [place]
  rfl

/-- A quotient is taken to as many bits as rounding needs. -/
theorem nearest_div_finite (positive : 0 < a) (positive' : 0 < b)
    (packed : x.toModel = pack (UnpackedFloat.div .binary64 (.finite .positive a e positive)
      (.finite .positive b f positive'))) : Nearest x (a * 2 ^ e / (b * 2 ^ f)) := by
  rw [div_finite] at packed
  have order : quotientPlace a e b f ≤ e - f := min_le_left _ _
  have bits : quotientPlace a e b f ≤ -1074
      ∨ 53 + b.log2 ≤ a.log2 + (e - f - quotientPlace a e b f).toNat := by
    unfold quotientPlace
    omega
  generalize quotientPlace a e b f = t at *
  have dividend : a <<< (e - f - t).toNat = a * 2 ^ (e - f - t).toNat := Nat.shiftLeft_eq _ _
  have above : (0 : ℚ) < a := by exact_mod_cast positive
  have below : (0 : ℚ) < b := by exact_mod_cast positive'
  have scale : (a : ℚ) * 2 ^ e / (b * 2 ^ f) / 2 ^ t = (a <<< (e - f - t).toNat : ℕ) / b := by
    rw [dividend]
    push_cast
    rw [← zpow_natCast, Int.toNat_of_nonneg (by omega), zpow_sub₀ two_ne_zero,
      zpow_sub₀ two_ne_zero]
    field_simp
  refine nearest_roundWithAccuracy (by positivity) ?_ ?_ packed
  · rw [scale]
    exact approximates_fraction _ positive'
  · refine bits.symm.imp_left fun enough => ?_
    have quotient : 2 ^ 52 ≤ a <<< (e - f - t).toNat / b := by
      rw [Nat.le_div_iff_mul_le positive', dividend]
      calc 2 ^ 52 * b ≤ 2 ^ 52 * 2 ^ (b.log2 + 1) := Nat.mul_le_mul_left _ Nat.lt_log2_self.le
        _ = 2 ^ (53 + b.log2) := by rw [← pow_add]; congr 1; omega
        _ ≤ 2 ^ (a.log2 + (e - f - t).toNat) := Nat.pow_le_pow_right (by decide) enough
        _ = 2 ^ a.log2 * 2 ^ (e - f - t).toNat := pow_add _ _ _
        _ ≤ a * 2 ^ (e - f - t).toNat := Nat.mul_le_mul_right _ (Nat.log2_self_le positive.ne')
    exact (Nat.le_log2 (by omega)).2 quotient

/-- A finite number above zero. -/
structure Positive (x : Float) : Prop where
  finite : x.isFinite = true
  sign : isNegative x = false
  some : 0 < significand x

theorem Positive.unpack (h : Positive x) :
    x.toModel.unpack = .finite .positive (significand x) (exponent x) h.some := by
  rw [unpack_eq, if_neg (isFinite_iff.1 h.finite), dif_neg h.some.ne']
  unfold Number.sign
  rw [if_neg (by rw [h.sign]; decide)]

theorem nearest_mul (hx : Positive x) (hy : Positive y) (full : 2 ^ 52 ≤ significand x) :
    Nearest (x * y) (magnitude x * magnitude y) := by
  have packed : (x * y).toModel = pack (UnpackedFloat.roundWithAccuracy .binary64 .positive
      (significand x * significand y) (exponent x + exponent y) .exact) := by
    show pack (UnpackedFloat.mul .binary64 x.toModel.unpack y.toModel.unpack) = _
    rw [hx.unpack, hy.unpack]
    rfl
  have some : significand x * significand y ≠ 0 := (Nat.mul_pos hx.some hy.some).ne'
  have size : magnitude x * magnitude y
      = (significand x * significand y : ℕ) * 2 ^ (exponent x + exponent y) := by
    unfold magnitude
    rw [zpow_add₀ two_ne_zero]
    push_cast
    ring
  rw [size]
  refine nearest_exact some (.inl ((Nat.le_log2 some).2 ?_)) packed
  exact full.trans (Nat.le_mul_of_pos_right _ hy.some)

theorem nearest_div (hx : Positive x) (hy : Positive y) :
    Nearest (x / y) (magnitude x / magnitude y) := by
  have packed : (x / y).toModel = pack (UnpackedFloat.div .binary64
      (.finite .positive (significand x) (exponent x) hx.some)
      (.finite .positive (significand y) (exponent y) hy.some)) := by
    rw [← hx.unpack, ← hy.unpack]
    rfl
  exact nearest_div_finite hx.some hy.some packed

end Products

-- =================================================== natural numbers as numbers

section Naturals

variable {n : ℕ}

theorem toModel_toFloat (some : 0 < n) (small : n < 2 ^ 53) :
    n.toUInt64.toFloat.toModel = pack (UnpackedFloat.roundWithAccuracy .binary64 .positive
      (n <<< (52 - n.log2)) (n.log2 - 52) .exact) := by
  have bits : n.log2 < 53 := (Nat.log2_lt some.ne').2 small
  have same : n.toUInt64.toNat = n := Nat.mod_eq_of_lt (small.trans (by decide))
  have above : compare (n : ℤ) 0 = .gt := compare_gt_iff_gt.2 (by omega)
  have place : Format.binary64.targetExponent (totalExponent n 0) = n.log2 - 52 := by
    rw [targetExponent_eq]
    unfold placeOf
    omega
  show pack (UnpackedFloat.normalize .binary64 (n.toUInt64.toNat : ℤ) 0 .positive) = _
  unfold UnpackedFloat.normalize
  rw [same, above]
  show pack (UnpackedFloat.round .binary64 .positive n 0) = _
  unfold UnpackedFloat.round UnpackedFloat.decreaseExponent
  rw [place]
  have shift : (0 - ((n.log2 : ℤ) - 52)).toNat = 52 - n.log2 := by omega
  have exponent : (0 : ℤ) - (52 - n.log2 : ℕ) = n.log2 - 52 := by omega
  simp only [shift, exponent]

/-- A natural number that is not too large is a number itself, with its leading
bit in place. -/
theorem toFloat_eq (some : 0 < n) (small : n < 2 ^ 53) :
    Positive n.toUInt64.toFloat ∧ magnitude n.toUInt64.toFloat = n
      ∧ 2 ^ 52 ≤ significand n.toUInt64.toFloat := by
  have bits : n.log2 < 53 := (Nat.log2_lt some.ne').2 small
  have log : (n <<< (52 - n.log2)).log2 = 52 := by
    rw [Nat.shiftLeft_eq, Nat.log2_eq_iff (Nat.mul_pos some (Nat.two_pow_pos _)).ne']
    have low := Nat.mul_le_mul_right (2 ^ (52 - n.log2)) (Nat.log2_self_le some.ne')
    have high := Nat.mul_lt_mul_of_pos_right (Nat.lt_log2_self (n := n))
      (Nat.two_pow_pos (52 - n.log2))
    rw [← pow_add] at low high
    rw [show n.log2 + (52 - n.log2) = 52 by omega] at low
    rw [show n.log2 + 1 + (52 - n.log2) = 52 + 1 by omega] at high
    exact ⟨low, high⟩
  have positive : 0 < n <<< (52 - n.log2) := Nat.pos_of_ne_zero fun h => by simp [h] at log
  obtain ⟨low, high⟩ := (Nat.log2_eq_iff positive.ne').1 log
  have size : ((n <<< (52 - n.log2) : ℕ) : ℚ) * 2 ^ ((n.log2 : ℤ) - 52) = n := by
    rw [Nat.shiftLeft_eq]
    push_cast
    rw [← zpow_natCast, mul_assoc, ← zpow_add₀ two_ne_zero, Nat.cast_sub (by omega)]
    simp
  -- a number with just these bits is there, so rounding gives no other
  obtain ⟨y, finite, m, e⟩ : ∃ y : Float, y.isFinite = true
      ∧ significand y = n <<< (52 - n.log2) ∧ exponent y = n.log2 - 52 := by
    obtain ⟨finite, -, m, e⟩ := of_pack_finite (x := .ofModel (pack (.finite .positive
      (n <<< (52 - n.log2)) (n.log2 - 52) positive))) high (.inl ⟨low, by omega⟩) (by omega) rfl
    exact ⟨_, finite, m, e⟩
  have exact : magnitude y = n := by
    unfold magnitude
    rw [m, e, size]
  have near := nearest_exact positive.ne' (.inl log.ge) (toModel_toFloat some small)
  rw [size, ← exact] at near
  obtain ⟨finite', same⟩ := near.magnitude_eq finite (rounds_magnitude (by omega))
  obtain ⟨-, m'⟩ := exponent_eq_and_significand_eq same
  rw [m] at m'
  exact ⟨⟨finite', near.positive, by omega⟩, same.trans exact, by omega⟩

theorem magnitude_eq_of_scaled (least : -52 ≤ exponent x)
    (size : significand x * 2 ^ (exponent x + 52).toNat = n * 2 ^ 52) : magnitude x = n := by
  have unit : (0 : ℚ) < 2 ^ 52 := by positivity
  have size : (significand x : ℚ) * 2 ^ (exponent x + 52).toNat = n * 2 ^ 52 := by
    exact_mod_cast size
  rw [← zpow_natCast, Int.toNat_of_nonneg (by omega), zpow_add₀ two_ne_zero, ← mul_assoc] at size
  exact mul_right_cancel₀ unit.ne' size

/-- The powers of ten of the table are exact. -/
theorem powerOfTen {n : ℕ} (h : n < Float.exactlyRepresentablePowersOfTen.size) :
    Positive Float.exactlyRepresentablePowersOfTen[n]
      ∧ magnitude Float.exactlyRepresentablePowersOfTen[n] = 10 ^ n := by
  have entries : ∀ n (h : n < Float.exactlyRepresentablePowersOfTen.size),
      let x := Float.exactlyRepresentablePowersOfTen[n]
      x.isFinite = true ∧ isNegative x = false ∧ 0 < significand x ∧ -52 ≤ exponent x
        ∧ significand x * 2 ^ (exponent x + 52).toNat = 10 ^ n * 2 ^ 52 := by decide +kernel
  obtain ⟨finite, sign, some, least, size⟩ := entries n h
  exact ⟨⟨finite, sign, some⟩, by exact_mod_cast magnitude_eq_of_scaled least size⟩

end Naturals

-- ================================================================ decimals

section Decimals

variable {m : ℕ} {e : ℤ}

/-- A short decimal is one product or one quotient of exact numbers. -/
theorem nearest_short {k : ℕ} (some : 0 < m) (small : m < 2 ^ 53)
    (h : k < Float.exactlyRepresentablePowersOfTen.size) :
    Nearest (m.toUInt64.toFloat * Float.exactlyRepresentablePowersOfTen[k]) (m * 10 ^ k)
      ∧ Nearest (m.toUInt64.toFloat / Float.exactlyRepresentablePowersOfTen[k]) (m / 10 ^ k) := by
  obtain ⟨whole, size, full⟩ := toFloat_eq some small
  obtain ⟨power, size'⟩ := powerOfTen h
  rw [← size, ← size']
  exact ⟨nearest_mul whole power full, nearest_div whole power⟩

theorem limit_le : limit ≤ 10 ^ 400 := by
  unfold limit
  rw [zpow_ofNat]
  calc ((2 : ℚ) ^ 54 - 1) * 2 ^ 970 ≤ 2 ^ 54 * 2 ^ 970 :=
        mul_le_mul_of_nonneg_right (by norm_num) (by positivity)
    _ = 2 ^ 1024 := (pow_add _ _ _).symm
    _ ≤ 2 ^ (3 * 400) := pow_le_pow_right₀ one_le_two (by decide)
    _ = (2 ^ 3) ^ 400 := pow_mul _ _ _
    _ ≤ 10 ^ 400 := pow_le_pow_left₀ (by norm_num) (by norm_num) _

theorem nearest_infinite (some : 0 < m) (large : 2048 < e)
    (packed : x.toModel = pack (.infinity .positive)) : Nearest x (m * 10 ^ e) := by
  have bits : x.toBits.toBitVec = UnpackedFloat.packComponents .binary64 .positive (-1) 0 :=
    congrArg (fun model => model.toBits.toBitVec) packed
  obtain ⟨sign, field, -⟩ := fields_of_packComponents bits
  replace field : exponentField x = 2047 := field
  refine .of_infinite (Bool.eq_false_iff.2 fun finite => isFinite_iff.1 finite field) sign ?_
  have one : (1 : ℚ) ≤ m := by exact_mod_cast some
  calc limit ≤ 10 ^ 400 := limit_le
    _ = 10 ^ (400 : ℤ) := (zpow_ofNat _ _).symm
    _ ≤ 10 ^ e := zpow_le_zpow_right₀ (by norm_num) (by omega)
    _ ≤ m * 10 ^ e := le_mul_of_one_le_left (by positivity) one

theorem nearest_tiny (tiny : e < -(2048 + (m.log2 : ℤ)))
    (packed : x.toModel = pack (.zero .positive)) : Nearest x (m * 10 ^ e) := by
  obtain ⟨finite, sign, none, exponent⟩ := of_pack_zero packed
  have power : (10 : ℚ) ^ e ≤ 2 ^ e := by
    obtain ⟨k, rfl⟩ : ∃ k : ℕ, e = -k := ⟨e.natAbs, by omega⟩
    rw [zpow_neg, zpow_neg, zpow_natCast, zpow_natCast]
    exact inv_anti₀ (by positivity) (pow_le_pow_left₀ (by norm_num) (by norm_num) _)
  have bits : (m : ℚ) ≤ 2 ^ ((m.log2 : ℤ) + 1) := by
    have : m ≤ 2 ^ (m.log2 + 1) := Nat.lt_log2_self.le
    exact_mod_cast this
  refine .of_finite finite sign (rounds_of_le_half none (by positivity) ?_)
  calc (m : ℚ) * 10 ^ e ≤ 2 ^ ((m.log2 : ℤ) + 1) * 2 ^ e :=
        mul_le_mul bits power (by positivity) (by positivity)
    _ = 2 ^ ((m.log2 : ℤ) + 1 + e) := (zpow_add₀ two_ne_zero _ _).symm
    _ ≤ 2 ^ (Number.exponent x - 2) := zpow_le_zpow_right₀ one_le_two (by omega)
    _ ≤ 2 * quarter x := le_mul_of_one_le_left (quarter_pos x).le one_le_two

/-- A long decimal is rounded from natural numbers. -/
theorem nearest_long (some : 0 < m)
    (packed : x.toModel = pack (UnpackedFloat.ofScientific .binary64 m e)) :
    Nearest x (m * 10 ^ e) := by
  unfold UnpackedFloat.ofScientific at packed
  rw [dif_neg some.ne'] at packed
  change x.toModel = pack (if e > 2048 then _ else if e < -(2048 + (m.log2 : ℤ)) then _ else _)
    at packed
  by_cases large : e > 2048
  · rw [if_pos large] at packed
    exact nearest_infinite some large packed
  rw [if_neg large] at packed
  by_cases tiny : e < -(2048 + (m.log2 : ℤ))
  · rw [if_pos tiny] at packed
    exact nearest_tiny tiny packed
  rw [if_neg tiny] at packed
  by_cases whole : 0 ≤ e
  · rw [if_pos whole] at packed
    replace packed : x.toModel = pack (UnpackedFloat.roundWithAccuracy .binary64 .positive
      ((m <<< 53) * 10 ^ e.toNat) (-53) .exact) := packed
    rw [Nat.shiftLeft_eq] at packed
    have full : 2 ^ 52 ≤ m * 2 ^ 53 * 10 ^ e.toNat := by
      refine le_trans ?_ (Nat.le_mul_of_pos_right _ (by positivity))
      omega
    have near := nearest_exact (by omega) (.inl ((Nat.le_log2 (by omega)).2 full)) packed
    have size : ((m * 2 ^ 53 * 10 ^ e.toNat : ℕ) : ℚ) * 2 ^ (-53 : ℤ) = m * 10 ^ e := by
      push_cast
      rw [← zpow_natCast 10, Int.toNat_of_nonneg whole, zpow_neg, zpow_ofNat]
      field_simp
      norm_num
    exact size ▸ near
  · rw [if_neg whole] at packed
    have near := nearest_div_finite _ _ packed
    have size : (m : ℚ) * 2 ^ (0 : ℤ) / ((10 ^ (-e).toNat : ℕ) * 2 ^ (0 : ℤ)) = m * 10 ^ e := by
      push_cast
      rw [← zpow_natCast 10, Int.toNat_of_nonneg (by omega), zpow_neg, mul_one, mul_one,
        div_inv_eq_mul]
    exact size ▸ near

/-- A decimal is read as a number nearest to it. -/
theorem nearest_ofScientific (some : 0 < m) (e : ℤ) :
    Nearest (Float.ofScientific m (e < 0) e.natAbs) (m * 10 ^ e) := by
  unfold Float.ofScientific
  by_cases negative : e < 0
  · have power : (m : ℚ) / 10 ^ e.natAbs = m * 10 ^ e := by
      rw [← zpow_natCast, Int.ofNat_natAbs_of_nonpos negative.le, zpow_neg, div_inv_eq_mul]
    have exponent : Int.negOfNat e.natAbs = e := by
      rw [Int.negOfNat_eq, Int.ofNat_eq_natCast, Int.ofNat_natAbs_of_nonpos negative.le, neg_neg]
    rw [decide_eq_true negative]
    split
    · next short => exact power ▸ (nearest_short some short.1 _).2
    · refine nearest_long some ?_
      dsimp only
      rw [if_pos rfl, exponent]
      rfl
  · have power : (m : ℚ) * 10 ^ e.natAbs = m * 10 ^ e := by
      rw [← zpow_natCast, Int.natAbs_of_nonneg (not_lt.1 negative)]
    have exponent : Int.ofNat e.natAbs = e := Int.natAbs_of_nonneg (not_lt.1 negative)
    rw [decide_eq_false negative]
    split
    · next short => exact power ▸ (nearest_short some short.1 _).1
    · refine nearest_long some ?_
      dsimp only
      rw [if_neg Bool.false_ne_true, exponent]
      rfl

end Decimals

end PartPlan.Number
