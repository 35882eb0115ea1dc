/-
The decimal that stands for a number rounds to it and to no other. What rounds
to a number lies in an interval around it, whose ends belong to it exactly if
its significand is even. Intervals of different sizes have no point in common:
measured in quarters of the last place of the smaller number, the upper end of
its interval is at or below the lower end of the other, and where the two meet
one of the significands is odd. Since each hit of the search for a short decimal
lies in the interval, the decimal determines the size of the number.
-/
import Mathlib.Tactic.FieldSimp
import PartPlan.Number.Shortest
import PartPlan.Proofs.Number.Value

namespace PartPlan.Number

variable {x y : Float}

-- ============================================================== intervals

/-- The distance, in quarters of the last place, from a number down to what no
longer rounds to it. -/
def quartersBelow (x : Float) : ℕ :=
  if significand x = 2 ^ 52 ∧ 1 < exponentField x then 1 else 2

/-- A quarter of the last place. -/
def quarter (x : Float) : ℚ := 2 ^ (exponent x - 2)

/-- A quantity rounds to the size of a number. -/
def Rounds (x : Float) (q : ℚ) : Prop :=
  if significand x % 2 = 0 then
    ((4 * significand x - quartersBelow x : ℕ) : ℚ) * quarter x ≤ q
      ∧ q ≤ ((4 * significand x + 2 : ℕ) : ℚ) * quarter x
  else
    ((4 * significand x - quartersBelow x : ℕ) : ℚ) * quarter x < q
      ∧ q < ((4 * significand x + 2 : ℕ) : ℚ) * quarter x

theorem quarter_pos (x : Float) : 0 < quarter x := zpow_pos two_pos _

theorem magnitude_eq_quarters (x : Float) :
    magnitude x = ((4 * significand x : ℕ) : ℚ) * quarter x := by
  unfold magnitude quarter
  rw [zpow_sub₀ two_ne_zero]
  push_cast
  ring

/-- The ends of an interval bound what rounds to a number. -/
theorem Rounds.bounds {q : ℚ} (h : Rounds x q) :
    ((4 * significand x - quartersBelow x : ℕ) : ℚ) * quarter x ≤ q
      ∧ q ≤ ((4 * significand x + 2 : ℕ) : ℚ) * quarter x := by
  unfold Rounds at h
  split at h
  · exact h
  · exact ⟨h.1.le, h.2.le⟩

/-- Only an even significand has the ends of the interval round to it. -/
theorem Rounds.even_of_eq_low {q : ℚ} (h : Rounds x q)
    (low : q = ((4 * significand x - quartersBelow x : ℕ) : ℚ) * quarter x) :
    significand x % 2 = 0 := by
  unfold Rounds at h
  split at h
  · next even => exact even
  · exact absurd low h.1.ne'

theorem Rounds.even_of_eq_high {q : ℚ} (h : Rounds x q)
    (high : q = ((4 * significand x + 2 : ℕ) : ℚ) * quarter x) : significand x % 2 = 0 := by
  unfold Rounds at h
  split at h
  · next even => exact even
  · exact absurd high h.2.ne

/-- What rounds to a number other than zero is above zero. -/
theorem Rounds.pos {q : ℚ} (h : Rounds x q) (nonzero : significand x ≠ 0) : 0 < q := by
  have steps : 0 < 4 * significand x - quartersBelow x := by
    unfold quartersBelow
    split
    · omega
    · omega
  exact (mul_pos (Nat.cast_pos.2 steps) (quarter_pos x)).trans_le h.bounds.1

/-- Whatever is not above half of the least place rounds to a zero. -/
theorem rounds_of_le_half {q : ℚ} (zero : significand x = 0) (low : 0 ≤ q)
    (high : q ≤ 2 * quarter x) : Rounds x q := by
  unfold Rounds
  rw [if_pos (by omega), zero]
  simp only [mul_zero, Nat.zero_sub, Nat.cast_zero, zero_mul, zero_add, Nat.cast_ofNat]
  exact ⟨low, high⟩

theorem rounds_zero (zero : significand x = 0) : Rounds x 0 :=
  rounds_of_le_half zero (le_refl 0) (mul_pos two_pos (quarter_pos x)).le

/-- A larger number measured in quarters of the last place of a smaller one:
its interval starts at or above the end of the other, and where they meet one
significand is odd. `scale` is how much larger its last place is. -/
theorem quarters_apart {scale : ℕ} (unit : exponent y = exponent x + scale)
    (larger : significand x < significand y * 2 ^ scale) :
    4 * significand x + 2 ≤ (4 * significand y - quartersBelow y) * 2 ^ scale
      ∧ (4 * significand x + 2 = (4 * significand y - quartersBelow y) * 2 ^ scale →
        significand x % 2 = 1 ∨ significand y % 2 = 1) := by
  have short := significand_lt x
  cases scale with
  | zero =>
    rw [pow_zero, mul_one] at larger ⊢
    unfold quartersBelow
    split
    · omega
    · omega
  | succ scale =>
    have room := exponent_ge x
    have normal : 2 ^ 52 ≤ significand y := le_significand (by omega)
    have inner : 1 < exponentField y := by
      unfold exponent at unit room
      split at unit
      · omega
      · omega
    have double : 2 ≤ 2 ^ (scale + 1) := Nat.le_self_pow (Nat.succ_ne_zero scale) 2
    have above := Nat.mul_le_mul_left (4 * significand y - quartersBelow y) double
    unfold quartersBelow at above ⊢
    split at above
    · next bottom =>
      rw [if_pos bottom]
      omega
    · next other =>
      rw [if_neg other]
      have : significand y ≠ 2 ^ 52 := fun h => other ⟨h, inner⟩
      omega

/-- Sizes whose intervals have a point in common are equal: a smaller one would
have its interval below the other. -/
theorem not_lt_of_rounds {q : ℚ} (hx : Rounds x q) (hy : Rounds y q) :
    ¬magnitude x < magnitude y := by
  intro smaller
  have order : exponent x ≤ exponent y := by
    by_contra h
    exact absurd (magnitude_lt_of_exponent_lt (not_le.1 h)) smaller.not_gt
  obtain ⟨scale, unit⟩ := Int.le.dest order
  have unit : exponent y = exponent x + scale := unit.symm
  have places : quarter y = 2 ^ scale * quarter x := by
    unfold quarter
    rw [unit, show exponent x + scale - 2 = scale + (exponent x - 2) by ring,
      zpow_add₀ two_ne_zero, zpow_natCast]
  have positive := quarter_pos x
  have larger : significand x < significand y * 2 ^ scale := by
    rw [magnitude_eq_quarters, magnitude_eq_quarters, places, ← mul_assoc] at smaller
    have := lt_of_mul_lt_mul_right smaller positive.le
    have : 4 * significand x < 4 * significand y * 2 ^ scale := by exact_mod_cast this
    rw [mul_assoc] at this
    exact lt_of_mul_lt_mul_left this (Nat.zero_le 4)
  obtain ⟨apart, odd⟩ := quarters_apart unit larger
  have low := hy.bounds.1
  have high := hx.bounds.2
  have lowEnd : ((4 * significand y - quartersBelow y : ℕ) : ℚ) * quarter y
      = (((4 * significand y - quartersBelow y) * 2 ^ scale : ℕ) : ℚ) * quarter x := by
    rw [places]
    push_cast
    ring
  have apart' : ((4 * significand x + 2 : ℕ) : ℚ) * quarter x
      ≤ ((4 * significand y - quartersBelow y : ℕ) : ℚ) * quarter y := by
    rw [lowEnd]
    exact mul_le_mul_of_nonneg_right (by exact_mod_cast apart) positive.le
  -- the two ends meet in the common point
  have atHigh : q = ((4 * significand x + 2 : ℕ) : ℚ) * quarter x :=
    le_antisymm high (apart'.trans low)
  have atLow : q = ((4 * significand y - quartersBelow y : ℕ) : ℚ) * quarter y :=
    le_antisymm (high.trans apart') low
  have meet : 4 * significand x + 2 = (4 * significand y - quartersBelow y) * 2 ^ scale := by
    have := mul_right_cancel₀ positive.ne' (atHigh.symm.trans (atLow.trans lowEnd))
    exact_mod_cast this
  have evenX := hx.even_of_eq_high atHigh
  have evenY := hy.even_of_eq_low atLow
  rcases odd meet with h | h
  · omega
  · omega

theorem magnitude_eq_of_rounds {q : ℚ} (hx : Rounds x q) (hy : Rounds y q) :
    magnitude x = magnitude y :=
  le_antisymm (not_lt.1 (not_lt_of_rounds hy hx)) (not_lt.1 (not_lt_of_rounds hx hy))

-- ============================================================== the search

/-- The quantity that a decimal is. -/
def Decimal.value (d : Decimal) : ℚ := d.digits * 10 ^ d.exponent

namespace Interval

/-- A quantity lies in an interval. -/
def Holds (i : Interval) (q : ℚ) : Prop :=
  if i.closed then (i.low : ℚ) ≤ q * i.scale ∧ q * i.scale ≤ i.high
  else (i.low : ℚ) < q * i.scale ∧ q * i.scale < i.high

variable {i : Interval} {tie : Tie} {k : ℤ} {n : ℕ}

theorem contains_iff (size : 0 < i.scale) : i.contains n = true ↔ i.Holds (n / i.scale) := by
  have : (n / i.scale : ℚ) * i.scale = n := div_mul_cancel₀ _ (by exact_mod_cast size.ne')
  unfold contains Holds
  rw [this]
  split
  · rw [Bool.and_eq_true, decide_eq_true_iff, decide_eq_true_iff, Nat.cast_le, Nat.cast_le]
  · rw [Bool.and_eq_true, decide_eq_true_iff, decide_eq_true_iff, Nat.cast_lt, Nat.cast_lt]

theorem contains_magnify_iff (size : 0 < i.scale) (positive : 0 < n) {m : ℕ} :
    (i.magnify n).contains m = true ↔ i.Holds (m / (n * i.scale)) := by
  have factor : (0 : ℚ) < n := by exact_mod_cast positive
  have : (m / (n * i.scale) : ℚ) * i.scale = m / n := by
    have : (i.scale : ℚ) ≠ 0 := by exact_mod_cast size.ne'
    field_simp
  unfold contains magnify Holds
  rw [this]
  split
  · rw [Bool.and_eq_true, decide_eq_true_iff, decide_eq_true_iff, le_div_iff₀ factor,
      div_le_iff₀ factor]
    norm_cast
  · rw [Bool.and_eq_true, decide_eq_true_iff, decide_eq_true_iff, lt_div_iff₀ factor,
      div_lt_iff₀ factor]
    norm_cast

/-- What a grid offers is one of its points that the interval contains. -/
theorem contains_of_gridPoint? (h : i.gridPoint? tie k = some n) :
    (if 0 ≤ k then i else i.magnify (10 ^ k.natAbs)).contains
      (n * if 0 ≤ k then 10 ^ k.natAbs * i.scale else i.scale) = true := by
  unfold gridPoint? at h
  simp only [Nat.pow_eq] at h
  generalize (if 0 ≤ k then i else i.magnify (10 ^ k.natAbs)) = j at h ⊢
  generalize (if 0 ≤ k then 10 ^ k.natAbs * i.scale else i.scale) = step at h ⊢
  cases below : j.contains (j.value / step * step) <;>
  cases above : j.contains ((j.value / step + 1) * step) <;>
  rw [below, above] at h
  case false.false => cases h
  case true.false =>
    cases h
    exact below
  case false.true =>
    cases h
    exact above
  case true.true =>
    have either : n = j.value / step ∨ n = j.value / step + 1 := by
      dsimp only at h
      split at h
      · exact .inl (Option.some.inj h).symm
      split at h
      · exact .inr (Option.some.inj h).symm
      split at h
      · exact .inr (Option.some.inj h).symm
      split at h
      · exact .inl (Option.some.inj h).symm
      · exact .inr (Option.some.inj h).symm
    rcases either with rfl | rfl
    · exact below
    · exact above

/-- What a grid offers lies in the interval. -/
theorem holds_of_gridPoint? (size : 0 < i.scale) (h : i.gridPoint? tie k = some n) :
    i.Holds (n * 10 ^ k) := by
  have inside := contains_of_gridPoint? h
  have scale : (i.scale : ℚ) ≠ 0 := by exact_mod_cast size.ne'
  by_cases coarse : 0 ≤ k
  · rw [if_pos coarse, if_pos coarse, contains_iff size] at inside
    convert inside using 1
    push_cast
    rw [← zpow_natCast, Int.natAbs_of_nonneg coarse]
    field_simp
  · rw [if_neg coarse, if_neg coarse, contains_magnify_iff size (Nat.pow_pos (by decide))] at inside
    convert inside using 1
    push_cast
    rw [← zpow_natCast, Int.ofNat_natAbs_of_nonpos (by omega), zpow_neg]
    field_simp

theorem holds_of_firstHit (size : 0 < i.scale) {fuel : ℕ} {d : Decimal}
    (h : i.firstHit tie fuel k = some d) : i.Holds d.value := by
  induction fuel generalizing k with
  | zero => cases h
  | succ fuel ih =>
    unfold firstHit at h
    split at h
    · next found =>
      cases h
      exact holds_of_gridPoint? size found
    · exact ih h

theorem scale_of_pos (x : Float) : 0 < (Interval.of x).scale := by
  unfold Interval.of
  dsimp only
  split
  · exact Nat.one_pos
  · exact Nat.pow_pos Nat.two_pos

/-- The common denominator of an interval turns quarters into whole numbers. -/
theorem quarter_mul_scale (x : Float) :
    quarter x * (Interval.of x).scale
      = ((if 0 ≤ exponent x - 2 then 2 ^ (exponent x - 2).natAbs else 1 : ℕ) : ℚ) := by
  unfold Interval.of quarter
  by_cases large : 0 ≤ exponent x - 2
  · simp only [if_pos large]
    push_cast
    rw [mul_one, ← zpow_natCast, Int.natAbs_of_nonneg large]
  · simp only [if_neg large]
    show _ * ((2 ^ (exponent x - 2).natAbs : ℕ) : ℚ) = _
    push_cast
    rw [← zpow_natCast, Int.ofNat_natAbs_of_nonpos (by omega), zpow_neg]
    exact mul_inv_cancel₀ (quarter_pos x).ne'

/-- The interval of a number holds what rounds to it. -/
theorem holds_of_iff {q : ℚ} : (Interval.of x).Holds q ↔ Rounds x q := by
  have size : (0 : ℚ) < (Interval.of x).scale := by exact_mod_cast scale_of_pos x
  have left (n : ℕ) :
      ((n * (if 0 ≤ exponent x - 2 then 2 ^ (exponent x - 2).natAbs else 1) : ℕ) : ℚ)
      = n * quarter x * (Interval.of x).scale := by
    rw [mul_assoc, quarter_mul_scale]
    push_cast
    rfl
  unfold Holds Rounds
  have low : ((Interval.of x).low : ℚ)
      = ((4 * significand x - quartersBelow x : ℕ) : ℚ) * quarter x * (Interval.of x).scale :=
    left _
  have high : ((Interval.of x).high : ℚ)
      = ((4 * significand x + 2 : ℕ) : ℚ) * quarter x * (Interval.of x).scale := left _
  have closed : (Interval.of x).closed = decide (significand x % 2 = 0) := rfl
  rw [low, high, closed, mul_le_mul_iff_of_pos_right size, mul_le_mul_iff_of_pos_right size,
    mul_lt_mul_iff_of_pos_right size, mul_lt_mul_iff_of_pos_right size]
  simp only [decide_eq_true_iff]

end Interval

theorem exactDecimal_value (x : Float) : (exactDecimal x).value = magnitude x := by
  unfold exactDecimal Decimal.value magnitude
  split
  · next large =>
    show ((significand x * 2 ^ (exponent x).natAbs : ℕ) : ℚ) * 10 ^ (0 : ℤ) = _
    push_cast
    rw [← zpow_natCast, Int.natAbs_of_nonneg large, mul_one]
  · next small =>
    show ((significand x * 5 ^ (exponent x).natAbs : ℕ) : ℚ) * 10 ^ exponent x = _
    have ten : (10 : ℚ) = 5 * 2 := by norm_num
    push_cast
    rw [ten, mul_zpow, ← zpow_natCast, Int.ofNat_natAbs_of_nonpos (by omega), zpow_neg]
    field_simp

theorem rounds_magnitude (h : significand x ≠ 0) : Rounds x (magnitude x) := by
  have positive := quarter_pos x
  have below : 4 * significand x - quartersBelow x < 4 * significand x := by
    unfold quartersBelow
    split
    · omega
    · omega
  rw [magnitude_eq_quarters]
  have low := mul_lt_mul_of_pos_right (Nat.cast_lt (α := ℚ).2 below) positive
  have high := mul_lt_mul_of_pos_right
    (Nat.cast_lt (α := ℚ).2 (show 4 * significand x < 4 * significand x + 2 by omega)) positive
  unfold Rounds
  split
  · exact ⟨low.le, high.le⟩
  · exact ⟨low, high⟩

/-- The decimal that stands for a number rounds to it. -/
theorem rounds_shortest (tie : Tie) (h : significand x ≠ 0) : Rounds x (shortest tie x).value := by
  unfold shortest
  cases found : (Interval.of x).firstHit tie 30 (coarsestGrid x) with
  | none =>
    rw [Option.getD_none, exactDecimal_value]
    exact rounds_magnitude h
  | some d =>
    exact Interval.holds_of_iff.1 (Interval.holds_of_firstHit (Interval.scale_of_pos x) found)

end PartPlan.Number
