/-
A number multiplied by another and divided by it again. Both operations round, so the
number need not come back, and the product may be too large to come back from. What
comes back is the nearest number to the product divided exactly; so it is the number
itself if and only if the product is not too large and its quotient still rounds to the
number (`mul_div_eq_iff`).

That is the case if the product is exact, and also if the places of the product are
finer than the factor times those of the number, for then the product is off by less
than what half a place of the number makes of it (`mul_div_of_fine`).

The factor is above zero and so the sign is kept throughout; a negative number is
rounded to the same fields as the positive one of its size.
-/
import PartPlan.Proofs.Number.Infinite
import PartPlan.Proofs.Number.Scientific

namespace PartPlan.Number

open Float.Model (UnpackedFloat pack)
open Float.Model.UnpackedFloat (Accuracy Sign)

variable {x y k : Float} {s : Sign} {q : ℚ}

-- ================================================================== signs

/-- Rounding has the same fields for both signs. -/
theorem pack_roundWithAccuracy (m : ℕ) (e : ℤ) (a : Accuracy) :
    ∃ E M, ∀ s, UnpackedFloat.pack .binary64 (UnpackedFloat.roundWithAccuracy .binary64 s m e a)
      = UnpackedFloat.packComponents .binary64 s E M := by
  unfold UnpackedFloat.roundWithAccuracy
  dsimp only
  -- where rounding leads is found without the sign
  generalize UnpackedFloat.shiftToTargetExponent .binary64 _ _ .exact = p
  by_cases none : p.1.mantissa = 0
  · refine ⟨0, 0, fun s => ?_⟩
    rw [dif_pos none]
    rfl
  · have packed (s : Sign) :
        UnpackedFloat.pack .binary64 (if h : p.1.mantissa = 0 then .zero s
          else .finite s p.1.mantissa p.2 (Nat.pos_of_ne_zero h)) = _ :=
      (congrArg (UnpackedFloat.pack .binary64) (dif_neg none)).trans (pack_finite ..)
    by_cases large : 2 ^ 11 ≤ (p.2 + 1075).toNat + 1
    · exact ⟨_, _, fun s => (packed s).trans (if_pos large)⟩
    · by_cases normal : p.1.mantissa.log2 + 1 = 53
      · exact ⟨_, _, fun s => (packed s).trans ((if_neg large).trans (if_pos normal))⟩
      · exact ⟨_, _, fun s => (packed s).trans ((if_neg large).trans (if_neg normal))⟩

/-- A number is what a quantity is rounded to, with a sign. -/
structure RoundedTo (x : Float) (negative : Bool) (q : ℚ) : Prop where
  sign : isNegative x = negative
  rounds : x.isFinite = true → Rounds x q
  large : x.isFinite = false → limit ≤ q

theorem isNegative_eq_of_sign (h : sign x = s) : isNegative x = (s == .negative) := by
  unfold sign at h
  split at h
  · next negative => rw [negative, ← h]; rfl
  · next positive => rw [Bool.not_eq_true] at positive; rw [positive, ← h]; rfl

/-- What is nearest to a quantity is, with another sign, what it is rounded to. -/
theorem roundedTo_of_nearest {m : ℕ} {e : ℤ} {a : Accuracy}
    (near : ∀ y : Float,
      y.toModel = pack (UnpackedFloat.roundWithAccuracy .binary64 .positive m e a) → Nearest y q)
    (packed : x.toModel = pack (UnpackedFloat.roundWithAccuracy .binary64 s m e a)) :
    RoundedTo x (s == .negative) q := by
  obtain ⟨E, M, fields⟩ := pack_roundWithAccuracy m e a
  obtain ⟨sign, exponents, fractions⟩ := fields_of_packComponents
    ((congrArg (fun model => model.toBits.toBitVec) packed).trans (fields s))
  obtain ⟨y, positive⟩ : ∃ y : Float,
      y.toModel = pack (UnpackedFloat.roundWithAccuracy .binary64 .positive m e a) :=
    ⟨.ofModel (pack _), rfl⟩
  obtain ⟨-, exponents', fractions'⟩ := fields_of_packComponents
    ((congrArg (fun model => model.toBits.toBitVec) positive).trans (fields .positive))
  have finite : x.isFinite = y.isFinite := by
    rw [Bool.eq_iff_iff, isFinite_iff, isFinite_iff, exponents, exponents']
  have rounds : Rounds x q ↔ Rounds y q := by
    unfold Rounds quarter quartersBelow significand exponent
    rw [exponents, exponents', fractions, fractions']
  exact ⟨isNegative_eq_of_sign sign, fun h => rounds.2 ((near y positive).rounds (finite ▸ h)),
    fun h => (near y positive).large (finite ▸ h)⟩

/-- A finite number as the format unpacks it. -/
theorem unpack_finite (finite : x.isFinite = true) :
    significand x = 0 ∧ x.toModel.unpack = .zero (sign x)
      ∨ ∃ some, x.toModel.unpack = .finite (sign x) (significand x) (exponent x) some := by
  rw [unpack_eq, if_neg (isFinite_iff.1 finite)]
  by_cases none : significand x = 0
  · exact .inl ⟨none, dif_pos none⟩
  · exact .inr ⟨Nat.pos_of_ne_zero none, dif_neg none⟩

theorem isNegative_eq (x : Float) : isNegative x = (sign x == .negative) :=
  isNegative_eq_of_sign rfl

theorem roundedTo_of_zero (packed : x.toModel = pack (.zero s)) :
    RoundedTo x (s == .negative) 0 := by
  obtain ⟨finite, sign, none, -⟩ := of_pack_zero packed
  exact ⟨isNegative_eq_of_sign sign, fun _ => rounds_zero none,
    fun infinite => absurd (infinite.symm.trans finite) Bool.false_ne_true⟩

-- ===================================================== products and quotients

/-- A number multiplied by one above zero that has its leading bit in place. -/
theorem roundedTo_mul (hx : x.isFinite = true) (hk : Positive k) (full : 2 ^ 52 ≤ significand k) :
    RoundedTo (x * k) (isNegative x) (magnitude x * magnitude k) := by
  have unpacked : (x * k).toModel
      = pack (UnpackedFloat.mul .binary64 x.toModel.unpack k.toModel.unpack) := rfl
  rw [hk.unpack] at unpacked
  rw [isNegative_eq]
  rcases unpack_finite hx with ⟨none, zero⟩ | ⟨some, here⟩
  · rw [zero] at unpacked
    rw [magnitude_eq_zero.2 none, zero_mul]
    exact roundedTo_of_zero (unpacked.trans (by cases sign x <;> rfl))
  · rw [here] at unpacked
    have size : magnitude x * magnitude k
        = (significand x * significand k : ℕ) * 2 ^ (exponent x + exponent k) := by
      unfold magnitude
      rw [zpow_add₀ two_ne_zero]
      push_cast
      ring
    have nonzero : significand x * significand k ≠ 0 := (Nat.mul_pos some hk.some).ne'
    have bits : 52 ≤ (significand x * significand k).log2 :=
      (Nat.le_log2 nonzero).2 (full.trans (Nat.le_mul_of_pos_left _ some))
    rw [size]
    refine roundedTo_of_nearest (fun y => nearest_exact nonzero (.inl bits)) (unpacked.trans ?_)
    cases sign x <;> rfl

/-- A number divided by one above zero. -/
theorem roundedTo_div (hx : x.isFinite = true) (hk : Positive k) :
    RoundedTo (x / k) (isNegative x) (magnitude x / magnitude k) := by
  have unpacked : (x / k).toModel
      = pack (UnpackedFloat.div .binary64 x.toModel.unpack k.toModel.unpack) := rfl
  rw [hk.unpack] at unpacked
  rw [isNegative_eq]
  rcases unpack_finite hx with ⟨none, zero⟩ | ⟨some, here⟩
  · rw [zero] at unpacked
    rw [magnitude_eq_zero.2 none, zero_div]
    exact roundedTo_of_zero (unpacked.trans (by cases sign x <;> rfl))
  · rw [here] at unpacked
    have quotient : ∃ m e a, ∀ s, UnpackedFloat.div .binary64
        (.finite s (significand x) (exponent x) some)
        (.finite .positive (significand k) (exponent k) hk.some)
        = UnpackedFloat.roundWithAccuracy .binary64 s m e a :=
      ⟨_, _, _, fun s => by cases s <;> rfl⟩
    obtain ⟨m, e, a, quotient⟩ := quotient
    refine roundedTo_of_nearest (fun y packed => ?_) (unpacked.trans (congrArg pack (quotient _)))
    exact nearest_div_finite some hk.some (packed.trans (congrArg pack (quotient .positive).symm))

/-- A finite number that a quantity rounds to is the one it is rounded to. -/
theorem RoundedTo.eq (h : RoundedTo x (isNegative y) q) (finite : y.isFinite = true)
    (rounds : Rounds y q) : x = y := by
  have inside : x.isFinite = true := by
    by_contra outside
    exact absurd (rounds.lt_limit finite) (not_lt.2 (h.large (Bool.not_eq_true _ ▸ outside)))
  exact eq_of_magnitude_eq h.sign (magnitude_eq_of_rounds (h.rounds inside) rounds)

theorem RoundedTo.isFinite_iff {negative : Bool} (h : RoundedTo x negative q) :
    x.isFinite = true ↔ q < limit := by
  refine ⟨fun finite => (h.rounds finite).lt_limit finite, fun small => ?_⟩
  by_contra outside
  exact absurd small (not_lt.2 (h.large (Bool.not_eq_true _ ▸ outside)))

-- ============================================================ there and back

/-- A number rounds to itself. -/
theorem rounds_self (x : Float) : Rounds x (magnitude x) := by
  by_cases none : significand x = 0
  · rw [magnitude_eq_zero.2 none]
    exact rounds_zero none
  · exact rounds_magnitude none

/-- What rounds to a number is at most half a place away. -/
theorem Rounds.near (h : Rounds x q) : |magnitude x - q| ≤ 2 ^ exponent x / 2 := by
  obtain ⟨low, high⟩ := h.bounds
  have below : (4 * significand x : ℚ) - 2
      ≤ ((4 * significand x - quartersBelow x : ℕ) : ℚ) := by
    have : 4 * significand x ≤ 4 * significand x - quartersBelow x + 2 := by
      unfold quartersBelow
      split <;> omega
    have : (4 * significand x : ℚ) ≤ ((4 * significand x - quartersBelow x : ℕ) : ℚ) + 2 := by
      exact_mod_cast this
    linarith
  have low := (mul_le_mul_of_nonneg_right below (quarter_pos x).le).trans low
  have size := magnitude_eq_quarters x
  rw [quarter_eq] at low high size
  push_cast at high size
  rw [abs_le]
  constructor <;> linarith

/-- What is less than half a place away rounds to a number, unless the places change
there. -/
theorem rounds_of_near (some : 0 < significand x)
    (inner : ¬ (significand x = 2 ^ 52 ∧ 1 < exponentField x))
    (near : |q - magnitude x| < 2 ^ exponent x / 2) : Rounds x q := by
  have unit : (0 : ℚ) < 2 ^ exponent x := zpow_pos two_pos _
  have below : quartersBelow x = 2 := if_neg inner
  obtain ⟨low, high⟩ := abs_lt.1 near
  unfold magnitude at low high
  have low : (significand x : ℚ) - 1 / 2 < q / 2 ^ exponent x := by
    rw [lt_div_iff₀ unit]
    linarith
  have high : q / 2 ^ exponent x < significand x + 1 / 2 := by
    rw [div_lt_iff₀ unit]
    linarith
  have half : ((2 : ℕ) : ℚ) / 4 = 1 / 2 := by norm_num
  rw [← div_mul_cancel₀ q unit.ne']
  refine rounds_of_places some ?_ high.le fun _ => ?_
  · rw [below, half]
    exact low.le
  · rw [below, half]
    exact ⟨low, high⟩

/-- What is left finite by a division by a finite number was finite before. -/
theorem isFinite_of_div (h : (x / k).isFinite = true) : x.isFinite = true :=
  (finite_operands (show (Operator.div.apply x k).isFinite = true from h)).1

/-- The way back never leads to an infinity, if the factor is not below one. -/
theorem isFinite_div (finite : x.isFinite = true) (hk : Positive k) (one : 1 ≤ magnitude k) :
    (x / k).isFinite = true := by
  refine (roundedTo_div finite hk).isFinite_iff.2 ?_
  calc magnitude x / magnitude k ≤ magnitude x := div_le_self (magnitude_nonneg _) one
    _ < limit := (rounds_self _).lt_limit finite

/-- A power of two times a number is a number, if it is not too large. -/
theorem exists_scaled (hk : Positive k) (full : 2 ^ 52 ≤ significand k) (one : 1 ≤ magnitude k)
    (power : significand x = 2 ^ 52) (small : magnitude x * magnitude k < limit) :
    ∃ y : Float, y.isFinite = true ∧ magnitude y = magnitude x * magnitude k := by
  have size : magnitude x * magnitude k
      = significand k * 2 ^ (exponent k + 52 + exponent x) := by
    unfold magnitude
    rw [power, zpow_add₀ two_ne_zero, zpow_add₀ two_ne_zero]
    push_cast
    ring
  -- a factor that is not below one has places that are not too small for this
  have least : -1074 ≤ exponent k + 52 + exponent x := by
    have short : (significand k : ℚ) < 2 ^ 53 := by exact_mod_cast significand_lt k
    have above : -53 < exponent k := by
      by_contra low
      have tiny : (2 : ℚ) ^ exponent k ≤ 2 ^ (-53 : ℤ) :=
        zpow_le_zpow_right₀ one_le_two (not_lt.1 low)
      have := mul_lt_mul short tiny (by positivity) (by positivity)
      rw [zpow_neg] at this
      have less : magnitude k < 1 := by
        unfold magnitude
        refine this.trans_le ?_
        rw [zpow_ofNat]
        norm_num
      exact absurd one (not_le.2 less)
    have := exponent_ge x
    omega
  have most : exponent k + 52 + exponent x ≤ 971 := by
    by_contra high
    have large : (2 : ℚ) ^ (972 : ℤ) ≤ 2 ^ (exponent k + 52 + exponent x) :=
      zpow_le_zpow_right₀ one_le_two (by omega)
    have bits : (2 : ℚ) ^ 52 ≤ significand k := by exact_mod_cast full
    have := mul_le_mul bits large (by positivity) (by positivity)
    rw [← size] at this
    exact absurd small (not_lt.2 (limit_le_large.trans this))
  obtain ⟨finite, -, m, e⟩ := of_pack_finite (significand_lt k) (.inl ⟨full, least⟩) most
    (x := .ofModel (pack (.finite .positive (significand k) _ hk.some))) rfl
  exact ⟨_, finite, by rw [size, magnitude, m, e]⟩

section ThereAndBack

variable (hx : x.isFinite = true) (hk : Positive k) (full : 2 ^ 52 ≤ significand k)

include hx hk full

/-- The product is finite unless it is too large. -/
theorem isFinite_mul_iff : (x * k).isFinite = true ↔ magnitude x * magnitude k < limit :=
  (roundedTo_mul hx hk full).isFinite_iff

/-- A number comes back exactly if the product does not become infinite and its quotient
rounds to the number. -/
theorem mul_div_eq_iff :
    x * k / k = x ↔ (x * k).isFinite = true ∧ Rounds x (magnitude (x * k) / magnitude k) := by
  have product := roundedTo_mul hx hk full
  constructor
  · intro same
    have whole : (x * k / k).isFinite = true := (congrArg Float.isFinite same).trans hx
    have finite := isFinite_of_div whole
    have back := (roundedTo_div finite hk).rounds whole
    rw [same] at back
    exact ⟨finite, back⟩
  · rintro ⟨finite, rounds⟩
    have back := roundedTo_div finite hk
    rw [product.sign] at back
    exact back.eq hx rounds

/-- If the product is exact, the number comes back. -/
theorem mul_div_of_exact (hy : y.isFinite = true)
    (exact : magnitude y = magnitude x * magnitude k) : x * k / k = x := by
  have product := roundedTo_mul hx hk full
  rw [← exact] at product
  have finite := product.isFinite_iff.2 ((rounds_self y).lt_limit hy)
  have same := magnitude_eq_of_rounds (product.rounds finite) (rounds_self y)
  refine (mul_div_eq_iff hx hk full).2 ⟨finite, ?_⟩
  have size : magnitude k ≠ 0 := (magnitude_pos hk.some.ne').ne'
  rw [same, exact, mul_div_cancel_right₀ _ size]
  exact rounds_self x

/-- If the places of the product are finer than the factor times those of the number,
the number comes back. -/
theorem mul_div_of_fine (one : 1 ≤ magnitude k) (finite : (x * k).isFinite = true)
    (fine : (2 : ℚ) ^ exponent (x * k) < magnitude k * 2 ^ exponent x) : x * k / k = x := by
  have product := roundedTo_mul hx hk full
  have size : 0 < magnitude k := magnitude_pos hk.some.ne'
  by_cases none : significand x = 0
  · refine mul_div_of_exact hx hk full hx ?_
    rw [magnitude_eq_zero.2 none, zero_mul]
  by_cases power : significand x = 2 ^ 52 ∧ 1 < exponentField x
  · -- below a power of two the places are half as large, so half a place is too much
    -- there, but the product with one is exact
    obtain ⟨y, hy, exact⟩ := exists_scaled hk full one power.1
      ((isFinite_mul_iff hx hk full).1 finite)
    exact mul_div_of_exact hx hk full hy exact
  refine (mul_div_eq_iff hx hk full).2
    ⟨finite, rounds_of_near (Nat.pos_of_ne_zero none) power ?_⟩
  have off : magnitude (x * k) / magnitude k - magnitude x
      = (magnitude (x * k) - magnitude x * magnitude k) / magnitude k := by
    field_simp
  rw [off, abs_div, abs_of_pos size, div_lt_iff₀ size]
  calc |magnitude (x * k) - magnitude x * magnitude k|
      ≤ 2 ^ exponent (x * k) / 2 := (product.rounds finite).near
    _ < 2 ^ exponent x / 2 * magnitude k := by linarith

end ThereAndBack

end PartPlan.Number
