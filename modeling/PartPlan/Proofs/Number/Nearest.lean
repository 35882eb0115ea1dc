/-
The format rounds to nearest. An exact quantity reaches it as a mantissa, an
exponent and the bits that were cut off: one for the half of the last place and
one for anything below it. Shifting a place further out keeps what these bits
say, so the mantissa that is rounded at the end is the nearest whole number, and
what is packed is a number that the quantity rounds to. Only above every finite
number it is an infinity.

The one thing to provide for is that enough bits are there at first: as many as
a significand has, unless the exponent is the least one or below it.
-/
import PartPlan.Proofs.Number.Packing
import PartPlan.Proofs.Number.Rounding

namespace PartPlan.Number

open Float.Model (UnpackedFloat Format totalExponent pack)
open Float.Model.UnpackedFloat (ExtendedMantissa Accuracy Sign)

-- ====================================================== bits that are cut off

/-- A mantissa with its two bits stands for a quantity. -/
def Approximates (em : ExtendedMantissa) (r : ℚ) : Prop :=
  match em.roundBit, em.stickyBit with
  | false, false => r = em.mantissa
  | false, true => (em.mantissa : ℚ) < r ∧ r < em.mantissa + 1 / 2
  | true, false => r = em.mantissa + 1 / 2
  | true, true => (em.mantissa : ℚ) + 1 / 2 < r ∧ r < em.mantissa + 1

/-- A whole number nearest to a quantity, the even one of two. -/
def IsNearest (n : ℕ) (r : ℚ) : Prop :=
  if n % 2 = 0 then (n : ℚ) - 1 / 2 ≤ r ∧ r ≤ n + 1 / 2
  else (n : ℚ) - 1 / 2 < r ∧ r < n + 1 / 2

section CutOff

variable {em : ExtendedMantissa} {r : ℚ} {n k : ℕ}

theorem Approximates.floor (h : Approximates em r) :
    (em.mantissa : ℚ) ≤ r ∧ r < em.mantissa + 1 := by
  obtain ⟨m, half, rest⟩ := em
  cases half <;> cases rest <;> simp only [Approximates] at h ⊢
  · subst h
    exact ⟨le_refl _, by linarith⟩
  · exact ⟨h.1.le, by linarith [h.2]⟩
  · exact ⟨by linarith, by linarith⟩
  · exact ⟨by linarith [h.1], h.2⟩

theorem Approximates.shiftRightOne (h : Approximates em r) :
    Approximates em.shiftRightOne (r / 2) := by
  obtain ⟨m, half, rest⟩ := em
  have whole : (m : ℚ) = 2 * (m / 2 : ℕ) + (m % 2 : ℕ) := by
    exact_mod_cast (Nat.div_add_mod m 2).symm
  rcases Nat.mod_two_eq_zero_or_one m with even | odd
  · have bit : (m % 2 != 0) = false := by rw [even]; rfl
    rw [even, Nat.cast_zero, add_zero] at whole
    cases half <;> cases rest <;>
      simp only [Approximates, ExtendedMantissa.shiftRightOne, bit, whole, Bool.or_false,
        Bool.or_true] at h ⊢
    · linarith
    · constructor <;> linarith [h.1, h.2]
    · constructor <;> linarith
    · constructor <;> linarith [h.1, h.2]
  · have bit : (m % 2 != 0) = true := by rw [odd]; rfl
    rw [odd, Nat.cast_one] at whole
    cases half <;> cases rest <;>
      simp only [Approximates, ExtendedMantissa.shiftRightOne, bit, whole, Bool.or_false,
        Bool.or_true] at h ⊢
    · linarith
    · constructor <;> linarith [h.1, h.2]
    · constructor <;> linarith
    · constructor <;> linarith [h.1, h.2]

theorem Approximates.shiftRight (h : Approximates em r) (k : ℕ) :
    Approximates (em >>> k) (r / 2 ^ k) := by
  show Approximates (Nat.repeat ExtendedMantissa.shiftRightOne k em) _
  induction k with
  | zero => simpa [Nat.repeat] using h
  | succ k ih =>
    rw [pow_succ, ← div_div]
    exact ih.shiftRightOne

theorem IsNearest.of_lt (low : (n : ℚ) - 1 / 2 < r) (high : r < n + 1 / 2) : IsNearest n r := by
  unfold IsNearest
  split
  · exact ⟨low.le, high.le⟩
  · exact ⟨low, high⟩

theorem IsNearest.of_even (even : n % 2 = 0) (low : (n : ℚ) - 1 / 2 ≤ r) (high : r ≤ n + 1 / 2) :
    IsNearest n r := by
  unfold IsNearest
  rw [if_pos even]
  exact ⟨low, high⟩

/-- The rounded mantissa is a nearest whole number. -/
theorem Approximates.isNearest (h : Approximates em r) : IsNearest em.roundedMantissa r := by
  obtain ⟨m, half, rest⟩ := em
  cases half <;> cases rest <;> simp only [Approximates] at h
  · show IsNearest m r
    exact .of_lt (by linarith) (by linarith)
  · show IsNearest m r
    exact .of_lt (by linarith [h.1]) h.2
  · -- a half goes to the even neighbour
    show IsNearest (m + m % 2) r
    have even : (m + m % 2) % 2 = 0 := by omega
    rcases Nat.mod_two_eq_zero_or_one m with same | up
    · exact .of_even even (by rw [same]; push_cast; linarith) (by rw [same]; push_cast; linarith)
    · exact .of_even even (by rw [up]; push_cast; linarith) (by rw [up]; push_cast; linarith)
  · show IsNearest (m + 1) r
    exact .of_lt (by push_cast; linarith [h.1]) (by push_cast; linarith [h.2])

theorem IsNearest.bounds (h : IsNearest n r) : (n : ℚ) - 1 / 2 ≤ r ∧ r ≤ n + 1 / 2 := by
  unfold IsNearest at h
  split at h
  · exact h
  · exact ⟨h.1.le, h.2.le⟩

/-- No whole number lies between a quantity and one nearest to it. -/
theorem IsNearest.le (h : IsNearest n r) (below : (k : ℚ) ≤ r) : k ≤ n := by
  by_contra more
  have : (n : ℚ) + 1 ≤ k := by exact_mod_cast not_le.1 more
  linarith [h.bounds.2]

theorem IsNearest.ge (h : IsNearest n r) (above : r ≤ k) : n ≤ k := by
  by_contra more
  have : (k : ℚ) + 1 ≤ n := by exact_mod_cast not_le.1 more
  linarith [h.bounds.1]

theorem mantissa_ofMantissaAndAccuracy (m : ℕ) (a : Accuracy) :
    (ExtendedMantissa.ofMantissaAndAccuracy m a).mantissa = m := by
  cases a with
  | exact => rfl
  | inexact order => cases order <;> rfl

theorem approximates_exact (m : ℕ) :
    Approximates (ExtendedMantissa.ofMantissaAndAccuracy m .exact) m := rfl

/-- A whole number and a proper fraction. -/
theorem approximates_rest (n : ℕ) {c b : ℕ} (proper : c < b) :
    Approximates (ExtendedMantissa.ofMantissaAndAccuracy n (UnpackedFloat.accuracyOfFraction c b))
      (n + c / b) := by
  have divisor : (0 : ℚ) < b := by exact_mod_cast (Nat.zero_le c).trans_lt proper
  have small : (c : ℚ) / b < 1 := (div_lt_one divisor).2 (by exact_mod_cast proper)
  unfold UnpackedFloat.accuracyOfFraction
  by_cases none : c = 0
  · rw [if_pos none, none, Nat.cast_zero, zero_div, add_zero]
    exact approximates_exact n
  rw [if_neg none]
  have some : 0 < (c : ℚ) / b := div_pos (by exact_mod_cast Nat.pos_of_ne_zero none) divisor
  rcases lt_trichotomy (2 * c) b with less | half | more
  · rw [compare_lt_iff_lt.2 less]
    have : (2 : ℚ) * c < b := by exact_mod_cast less
    have : (c : ℚ) / b < 1 / 2 := (div_lt_iff₀ divisor).2 (by linarith)
    show (n : ℚ) < n + c / b ∧ (n : ℚ) + c / b < n + 1 / 2
    constructor <;> linarith
  · rw [compare_eq_iff_eq.2 half]
    have : (2 : ℚ) * c = b := by exact_mod_cast half
    have : (c : ℚ) / b = 1 / 2 := (div_eq_iff divisor.ne').2 (by linarith)
    show (n : ℚ) + c / b = n + 1 / 2
    rw [this]
  · rw [compare_gt_iff_gt.2 more]
    have : (b : ℚ) < 2 * c := by exact_mod_cast more
    have : 1 / 2 < (c : ℚ) / b := (lt_div_iff₀ divisor).2 (by linarith)
    show (n : ℚ) + 1 / 2 < n + c / b ∧ (n : ℚ) + c / b < n + 1
    constructor <;> linarith

/-- A quotient and what is left over. -/
theorem approximates_fraction (a : ℕ) {b : ℕ} (positive : 0 < b) :
    Approximates (ExtendedMantissa.ofMantissaAndAccuracy (a / b)
      (UnpackedFloat.accuracyOfFraction (a % b) b)) (a / b) := by
  have divisor : (b : ℚ) ≠ 0 := by exact_mod_cast positive.ne'
  have whole : (a : ℚ) = b * (a / b : ℕ) + (a % b : ℕ) := by
    exact_mod_cast (Nat.div_add_mod a b).symm
  have quotient : (a : ℚ) / b = (a / b : ℕ) + (a % b : ℕ) / b := by
    rw [div_eq_iff divisor, add_mul, div_mul_cancel₀ _ divisor, mul_comm _ (b : ℚ)]
    exact whole
  rw [quotient]
  exact approximates_rest (a / b) (Nat.mod_lt a positive)

end CutOff

-- ================================================================= carrying

/-- The exponent under which a significand has all its bits, or the least
one. -/
def placeOf (m : ℕ) (e : ℤ) : ℤ := max (m.log2 + e - 52) (-1074)

/-- The number `n · 2 ^ t`, where `n` may have one bit too many. -/
def carried (s : Sign) (n : ℕ) (t : ℤ) : UnpackedFloat :=
  if h : n = 0 then .zero s
  else if n < 2 ^ 53 then .finite s n t (Nat.pos_of_ne_zero h)
  else .finite s (2 ^ 52) (t + 1) (by decide)

section Carrying

variable {s : Sign} {m n : ℕ} {e t : ℤ} {a : Accuracy}

theorem targetExponent_eq (m : ℕ) (e : ℤ) :
    Format.binary64.targetExponent (totalExponent m e) = placeOf m e := by
  show max ((m.log2 : ℤ) + 1 + e - (1 + 52 : ℕ)) (3 - 2 ^ (11 - 1) - (1 + 52 : ℕ)) = _
  unfold placeOf
  norm_num
  omega

theorem shiftToTargetExponent_eq (m : ℕ) (e : ℤ) (a : Accuracy) :
    UnpackedFloat.shiftToTargetExponent .binary64 m e a
      = (ExtendedMantissa.ofMantissaAndAccuracy m a >>> (placeOf m e - e).toNat,
        e + (placeOf m e - e).toNat) := by
  unfold UnpackedFloat.shiftToTargetExponent UnpackedFloat.shiftToExponent
  rw [targetExponent_eq]

/-- What has its bits in place stays as it is. -/
theorem shiftToTargetExponent_of_lt (small : m < 2 ^ 53) (least : -1074 ≤ t) :
    UnpackedFloat.shiftToTargetExponent .binary64 m t .exact = (⟨m, false, false⟩, t) := by
  have bits : m.log2 ≤ 52 := by
    by_cases none : m = 0
    · simp [none]
    · exact Nat.le_of_lt_succ ((Nat.log2_lt none).2 small)
  have place : (placeOf m t - t).toNat = 0 := by
    unfold placeOf
    omega
  rw [shiftToTargetExponent_eq, place]
  simp only [Nat.cast_zero, add_zero]
  rfl

theorem shiftToTargetExponent_two_pow (least : -1074 ≤ t) :
    UnpackedFloat.shiftToTargetExponent .binary64 (2 ^ 53) t .exact
      = (⟨2 ^ 52, false, false⟩, t + 1) := by
  have place : (placeOf (2 ^ 53) t - t).toNat = 1 := by
    unfold placeOf
    rw [Nat.log2_two_pow]
    omega
  rw [shiftToTargetExponent_eq, place]
  rfl

/-- Rounding shifts the mantissa into place, rounds it, and carries. -/
theorem roundWithAccuracy_eq (s : Sign) (fits : e ≤ placeOf m e)
    (rounded : (ExtendedMantissa.ofMantissaAndAccuracy m a
      >>> (placeOf m e - e).toNat).roundedMantissa = n) (short : n ≤ 2 ^ 53) :
    UnpackedFloat.roundWithAccuracy .binary64 s m e a = carried s n (placeOf m e) := by
  have least : -1074 ≤ placeOf m e := le_max_right _ _
  have place : e + (placeOf m e - e).toNat = placeOf m e := by omega
  unfold UnpackedFloat.roundWithAccuracy carried
  rw [shiftToTargetExponent_eq, place]
  generalize ExtendedMantissa.ofMantissaAndAccuracy m a >>> (placeOf m e - e).toNat = em
    at rounded ⊢
  subst rounded
  dsimp only
  by_cases full : em.roundedMantissa < 2 ^ 53
  · have stays := shiftToTargetExponent_of_lt full least
    generalize UnpackedFloat.shiftToTargetExponent .binary64 em.roundedMantissa _ .exact = p
      at stays ⊢
    subst stays
    by_cases none : em.roundedMantissa = 0
    · rw [dif_pos none, dif_pos none]
    · rw [dif_neg none, dif_neg none, if_pos full]
  · have top : em.roundedMantissa = 2 ^ 53 := by omega
    have halved := shiftToTargetExponent_two_pow least
    rw [← top] at halved
    generalize UnpackedFloat.shiftToTargetExponent .binary64 em.roundedMantissa _ .exact = p
      at halved ⊢
    subst halved
    have some : em.roundedMantissa ≠ 0 := by omega
    rw [dif_neg some, if_neg full]
    rfl

end Carrying

-- ========================================================== nearest numbers

/-- The quantity from which on nothing rounds to a finite number. -/
def limit : ℚ := (2 ^ 54 - 1) * 2 ^ (970 : ℤ)

/-- A number is what a quantity above zero is rounded to. -/
structure Nearest (x : Float) (q : ℚ) : Prop where
  positive : isNegative x = false
  rounds : x.isFinite = true → Rounds x q
  large : x.isFinite = false → limit ≤ q

section Nearest

variable {x y : Float} {q : ℚ}

theorem exponent_le (h : x.isFinite = true) : exponent x ≤ 971 := by
  have := isFinite_iff.1 h
  have := exponentField_eq x
  unfold exponent
  split
  · omega
  · omega

/-- A number of fifty-three bits with places too large for the format is not below the
limit. -/
theorem limit_le_large : limit ≤ 2 ^ 52 * 2 ^ (972 : ℤ) :=
  calc limit ≤ 2 ^ 54 * 2 ^ (970 : ℤ) :=
        mul_le_mul_of_nonneg_right (by norm_num) (by positivity)
    _ = 2 ^ 52 * 2 ^ (972 : ℤ) := by
        rw [show (972 : ℤ) = 970 + 1 + 1 from rfl, zpow_add_one₀ two_ne_zero,
          zpow_add_one₀ two_ne_zero]
        ring

/-- What rounds to a finite number is below the limit. -/
theorem Rounds.lt_limit (h : Rounds x q) (finite : x.isFinite = true) : q < limit := by
  have short := significand_lt x
  have unit : quarter x ≤ 2 ^ (969 : ℤ) :=
    zpow_le_zpow_right₀ one_le_two (by have := exponent_le finite; omega)
  have steps : ((4 * significand x + 2 : ℕ) : ℚ) ≤ 2 ^ 55 - 2 := by
    have : 4 * significand x + 2 + 2 ≤ 2 ^ 55 := by omega
    have : ((4 * significand x + 2 : ℕ) : ℚ) + 2 ≤ 2 ^ 55 := by exact_mod_cast this
    linarith
  have top : limit = (2 ^ 55 - 2) * 2 ^ (969 : ℤ) := by
    unfold limit
    rw [show (970 : ℤ) = 969 + 1 from rfl, zpow_add_one₀ two_ne_zero]
    ring
  have bound : ((4 * significand x + 2 : ℕ) : ℚ) * quarter x ≤ limit := by
    rw [top]
    exact mul_le_mul steps unit (quarter_pos x).le (by norm_num)
  refine lt_of_le_of_ne (h.bounds.2.trans bound) fun same => ?_
  -- only the greatest number reaches the limit, and it is odd
  have high := le_antisymm h.bounds.2 (bound.trans same.ge)
  have even := h.even_of_eq_high high
  have less : ((4 * significand x + 2 : ℕ) : ℚ) < 2 ^ 55 - 2 := by
    have : 4 * significand x + 2 + 2 < 2 ^ 55 := by omega
    have : ((4 * significand x + 2 : ℕ) : ℚ) + 2 < 2 ^ 55 := by exact_mod_cast this
    linarith
  have := mul_lt_mul less unit (quarter_pos x) (by norm_num)
  rw [← top, ← high, same] at this
  exact lt_irrefl _ this

/-- A quantity has one nearest number. -/
theorem Nearest.magnitude_eq (h : Nearest x q) (finite : y.isFinite = true) (r : Rounds y q) :
    x.isFinite = true ∧ magnitude x = magnitude y := by
  have inside : x.isFinite = true := by
    by_contra outside
    exact absurd (r.lt_limit finite) (not_lt.2 (h.large (Bool.not_eq_true _ ▸ outside)))
  exact ⟨inside, magnitude_eq_of_rounds (h.rounds inside) r⟩

theorem quarter_eq (x : Float) : quarter x = 2 ^ exponent x / 4 := by
  unfold quarter
  rw [zpow_sub₀ two_ne_zero]
  norm_num

/-- A quantity rounds to a number if it lies within half a place of it, and
within a quarter below the numbers after which the places change. -/
theorem rounds_of_places {r : ℚ} (some : 0 < significand x)
    (low : (significand x : ℚ) - quartersBelow x / 4 ≤ r) (high : r ≤ significand x + 1 / 2)
    (odd : significand x % 2 ≠ 0 → (significand x : ℚ) - quartersBelow x / 4 < r
      ∧ r < significand x + 1 / 2) : Rounds x (r * 2 ^ exponent x) := by
  have unit : (0 : ℚ) < 2 ^ exponent x := zpow_pos two_pos _
  have below : ((4 * significand x - quartersBelow x : ℕ) : ℚ) * quarter x
      = (significand x - quartersBelow x / 4) * 2 ^ exponent x := by
    have : quartersBelow x ≤ 4 * significand x := by
      unfold quartersBelow
      split <;> omega
    rw [quarter_eq, Nat.cast_sub this]
    push_cast
    ring
  have above : ((4 * significand x + 2 : ℕ) : ℚ) * quarter x
      = (significand x + 1 / 2) * 2 ^ exponent x := by
    rw [quarter_eq]
    push_cast
    ring
  unfold Rounds
  rw [below, above]
  split
  · exact ⟨mul_le_mul_of_nonneg_right low unit.le, mul_le_mul_of_nonneg_right high unit.le⟩
  · next other =>
    obtain ⟨low, high⟩ := odd other
    exact ⟨mul_lt_mul_of_pos_right low unit, mul_lt_mul_of_pos_right high unit⟩

/-- Away from where the places change, half a place is enough. -/
theorem rounds_of_isNearest {r : ℚ} (some : 0 < significand x) (near : IsNearest (significand x) r)
    (change : significand x = 2 ^ 52 → 1 < exponentField x → 2 ^ 52 ≤ r) :
    Rounds x (r * 2 ^ exponent x) := by
  have high := near.bounds.2
  by_cases bottom : significand x = 2 ^ 52 ∧ 1 < exponentField x
  · have below : quartersBelow x = 1 := if_pos bottom
    have above := change bottom.1 bottom.2
    have least : (significand x : ℚ) = 2 ^ 52 := by exact_mod_cast bottom.1
    refine rounds_of_places some ?_ high fun odd => absurd bottom.1 (by omega)
    rw [below, Nat.cast_one]
    linarith
  · have below : quartersBelow x = 2 := if_neg bottom
    have half : (quartersBelow x : ℚ) / 4 = 1 / 2 := by
      rw [below]
      norm_num
    refine rounds_of_places some ?_ high fun odd => ?_
    · rw [half]
      exact near.bounds.1
    · unfold IsNearest at near
      rw [if_neg odd] at near
      rw [half]
      exact near

theorem isNegative_of_sign (h : sign x = .positive) : isNegative x = false := by
  unfold sign at h
  by_contra negative
  rw [Bool.not_eq_false] at negative
  rw [if_pos negative] at h
  cases h

theorem Nearest.of_finite (finite : x.isFinite = true) (sign : sign x = .positive)
    (rounds : Rounds x q) : Nearest x q :=
  ⟨isNegative_of_sign sign, fun _ => rounds,
    fun infinite => absurd (infinite.symm.trans finite) Bool.false_ne_true⟩

theorem Nearest.of_infinite (infinite : x.isFinite = false) (sign : sign x = .positive)
    (large : limit ≤ q) : Nearest x q :=
  ⟨isNegative_of_sign sign,
    fun finite => absurd (infinite.symm.trans finite) Bool.false_ne_true, fun _ => large⟩

variable {n : ℕ} {t : ℤ} {r : ℚ}

/-- A quantity of which nothing is left is below half of the least place. -/
theorem nearest_zero (positive : 0 < r) (near : IsNearest 0 r)
    (packed : x.toModel = pack (.zero .positive)) : Nearest x (r * 2 ^ (-1074 : ℤ)) := by
  obtain ⟨finite, sign, m, e⟩ := of_pack_zero packed
  have place : 2 ^ (-1074 : ℤ) = 4 * quarter x := by
    rw [quarter_eq, e]
    ring
  have half : r ≤ 1 / 2 := by simpa using near.bounds.2
  have unit := quarter_pos x
  refine .of_finite finite sign ?_
  rw [place]
  refine rounds_of_le_half m (by positivity) ?_
  calc r * (4 * quarter x) ≤ 1 / 2 * (4 * quarter x) :=
        mul_le_mul_of_nonneg_right half (by positivity)
    _ = 2 * quarter x := by ring

theorem nearest_finite {some : 0 < n} (small : n < 2 ^ 53) (near : IsNearest n r)
    (least : -1074 ≤ t) (full : t = -1074 ∨ 2 ^ 52 ≤ r)
    (packed : x.toModel = pack (.finite .positive n t some)) : Nearest x (r * 2 ^ t) := by
  by_cases inside : t ≤ 971
  · have place : 2 ^ 52 ≤ n ∧ -1074 ≤ t ∨ t = -1074 :=
      full.symm.imp_left fun h => ⟨near.le (by exact_mod_cast h), least⟩
    obtain ⟨finite, sign, m, e⟩ := of_pack_finite small place inside packed
    refine .of_finite finite sign ?_
    rw [← e]
    refine rounds_of_isNearest (by omega) (by rw [m]; exact near) fun _ inner => ?_
    have : t ≠ -1074 := by
      rw [← e]
      unfold exponent
      split <;> omega
    exact full.resolve_left this
  · obtain ⟨infinite, sign⟩ := of_pack_large (not_le.1 inside) packed
    refine .of_infinite infinite sign ?_
    have above : 2 ^ 52 ≤ r := full.resolve_left (by omega)
    have large : (2 : ℚ) ^ (972 : ℤ) ≤ 2 ^ t := zpow_le_zpow_right₀ one_le_two (by omega)
    calc limit ≤ 2 ^ 52 * 2 ^ (972 : ℤ) := limit_le_large
      _ ≤ r * 2 ^ t := mul_le_mul above large (by positivity) (by linarith)

/-- A mantissa that has grown by a bit is a power of two. -/
theorem nearest_power {some : 0 < 2 ^ 52} (near : IsNearest (2 ^ 53) r) (least : -1074 ≤ t)
    (short : r < 2 ^ 53) (packed : x.toModel = pack (.finite .positive (2 ^ 52) (t + 1) some)) :
    Nearest x (r * 2 ^ t) := by
  have low := near.bounds.1
  rw [Nat.cast_pow, Nat.cast_ofNat] at low
  by_cases inside : t + 1 ≤ 971
  · obtain ⟨finite, sign, m, e⟩ := of_pack_finite (by decide) (.inl ⟨le_refl _, by omega⟩)
      inside packed
    refine .of_finite finite sign ?_
    have half : r / 2 * 2 ^ exponent x = r * 2 ^ t := by
      rw [e, zpow_add_one₀ two_ne_zero]
      ring
    have inner : 1 < exponentField x := by
      unfold exponent at e
      split at e <;> omega
    have below : quartersBelow x = 1 := if_pos ⟨m, inner⟩
    rw [← half]
    refine rounds_of_places (by omega) ?_ ?_ fun odd => absurd odd (by rw [m]; decide)
    · rw [m, below]
      push_cast
      linarith
    · rw [m]
      push_cast
      linarith
  · obtain ⟨infinite, sign⟩ := of_pack_large (not_le.1 inside) packed
    refine .of_infinite infinite sign ?_
    have large : (2 : ℚ) ^ (971 : ℤ) ≤ 2 ^ t := zpow_le_zpow_right₀ one_le_two (by omega)
    calc limit = (2 ^ 53 - 1 / 2) * 2 ^ (971 : ℤ) := by
          unfold limit
          rw [show (971 : ℤ) = 970 + 1 from rfl, zpow_add_one₀ two_ne_zero]
          ring
      _ ≤ r * 2 ^ t := mul_le_mul low large (by positivity) (by linarith)

/-- What is carried after rounding is a nearest number. -/
theorem nearest_carried (positive : 0 < r) (near : IsNearest n r) (least : -1074 ≤ t)
    (short : r < 2 ^ 53) (full : t = -1074 ∨ 2 ^ 52 ≤ r)
    (packed : x.toModel = pack (carried .positive n t)) : Nearest x (r * 2 ^ t) := by
  unfold carried at packed
  by_cases none : n = 0
  · rw [dif_pos none] at packed
    subst none
    have bottom : t = -1074 := full.resolve_right fun above => by
      have := near.le (k := 2 ^ 52) (by exact_mod_cast above)
      omega
    rw [bottom]
    exact nearest_zero positive near packed
  rw [dif_neg none] at packed
  by_cases small : n < 2 ^ 53
  · rw [if_pos small] at packed
    exact nearest_finite small near least full packed
  · rw [if_neg small] at packed
    have := near.ge (k := 2 ^ 53) (by exact_mod_cast short.le)
    obtain rfl : n = 2 ^ 53 := by omega
    exact nearest_power near least short packed

/-- In its place a mantissa has at most one bit too many. -/
theorem shifted_lt {m : ℕ} {e : ℤ} (high : r < m + 1) :
    r / 2 ^ (placeOf m e - e).toNat < 2 ^ 53 := by
  have bits : m + 1 ≤ 2 ^ (53 + (placeOf m e - e).toNat) := by
    refine (Nat.lt_log2_self (n := m)).trans_le (Nat.pow_le_pow_right (by decide) ?_)
    unfold placeOf
    omega
  have bits : (m : ℚ) + 1 ≤ 2 ^ (53 + (placeOf m e - e).toNat) := by exact_mod_cast bits
  rw [div_lt_iff₀ (by positivity), ← pow_add]
  exact high.trans_le bits

/-- It has all its bits there, unless its place is the least one. -/
theorem le_shifted {m : ℕ} {e : ℤ} (low : m ≤ r) (fits : 52 ≤ m.log2 ∨ e ≤ -1074) :
    placeOf m e = -1074 ∨ 2 ^ 52 ≤ r / 2 ^ (placeOf m e - e).toNat := by
  refine or_iff_not_imp_left.2 fun above => ?_
  have log : m.log2 = 52 + (placeOf m e - e).toNat := by
    unfold placeOf at above ⊢
    omega
  have some : m ≠ 0 := by
    rintro rfl
    rw [Nat.log2_zero] at log
    omega
  have bits := Nat.log2_self_le some
  rw [log] at bits
  have bits : (2 : ℚ) ^ (52 + (placeOf m e - e).toNat) ≤ m := by exact_mod_cast bits
  rw [le_div_iff₀ (by positivity), ← pow_add]
  exact bits.trans low

/-- Rounding gives a nearest number if there are enough bits at first. -/
theorem nearest_roundWithAccuracy {m : ℕ} {e : ℤ} {a : Accuracy} (positive : 0 < q)
    (stands : Approximates (ExtendedMantissa.ofMantissaAndAccuracy m a) (q / 2 ^ e))
    (fits : 52 ≤ m.log2 ∨ e ≤ -1074)
    (packed : x.toModel = pack (UnpackedFloat.roundWithAccuracy .binary64 .positive m e a)) :
    Nearest x q := by
  have order : e ≤ placeOf m e := by
    unfold placeOf
    omega
  have scale : q / 2 ^ e / 2 ^ (placeOf m e - e).toNat = q / 2 ^ placeOf m e := by
    rw [div_div, ← zpow_natCast, ← zpow_add₀ two_ne_zero]
    congr 2
    omega
  obtain ⟨low, high⟩ := stands.floor
  rw [mantissa_ofMantissaAndAccuracy] at low high
  have short := shifted_lt (e := e) high
  have full := le_shifted low fits
  have near := (stands.shiftRight (placeOf m e - e).toNat).isNearest
  rw [scale] at short full near
  have bits := near.ge (k := 2 ^ 53) (by exact_mod_cast short.le)
  have place : (0 : ℚ) < 2 ^ placeOf m e := by positivity
  rw [roundWithAccuracy_eq .positive order rfl bits] at packed
  rw [← div_mul_cancel₀ q place.ne']
  exact nearest_carried (div_pos positive place) near (le_max_right _ _) short full packed

end Nearest

end PartPlan.Number
