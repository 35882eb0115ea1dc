/-
What is packed is what was meant. A number is packed into the fields of its
bits, and these are the fields that its significand and its exponent are read
off: a number with its leading bit in place, or with the least exponent, keeps
both, and one with too large an exponent becomes an infinity.
-/
import Mathlib.Tactic.Linarith
import PartPlan.Proofs.Number.Value

namespace PartPlan.Number

open Float.Model (UnpackedFloat Format pack)
open Float.Model.UnpackedFloat (Sign)

variable {x : Float} {s : Sign} {m : ℕ} {e : ℤ}

theorem toNat_packComponents (s : Sign) (E : BitVec 11) (M : BitVec 52) :
    (UnpackedFloat.packComponents .binary64 s E M).toNat
      = s.toBitVec.toNat * 2 ^ 63 + E.toNat * 2 ^ 52 + M.toNat := by
  show (s.toBitVec ++ E ++ M).toNat = _
  rw [BitVec.toNat_append, BitVec.toNat_append, ← Nat.shiftLeft_add_eq_or_of_lt M.isLt,
    ← Nat.shiftLeft_add_eq_or_of_lt E.isLt, Nat.shiftLeft_eq, Nat.shiftLeft_eq]
  ring

/-- The fields of a number that was packed from them. -/
theorem fields_of_packComponents {E : BitVec 11} {M : BitVec 52}
    (bits : x.toBits.toBitVec = UnpackedFloat.packComponents .binary64 s E M) :
    sign x = s ∧ exponentField x = E.toNat ∧ fractionField x = M.toNat := by
  have whole : x.toBits.toNat = s.toBitVec.toNat * 2 ^ 63 + E.toNat * 2 ^ 52 + M.toNat := by
    rw [← toNat_packComponents, ← bits]
    rfl
  have low := M.isLt
  have middle := E.isLt
  have top := s.toBitVec.isLt
  refine ⟨?_, ?_, ?_⟩
  · unfold sign
    have negative := isNegative_iff x
    cases s with
    | negative =>
      rw [if_pos (negative.2 ?_)]
      rw [whole, show (Sign.negative.toBitVec).toNat = 1 from rfl]
      omega
    | positive =>
      rw [if_neg (mt negative.1 ?_)]
      rw [whole, show (Sign.positive.toBitVec).toNat = 0 from rfl]
      omega
  · rw [exponentField_eq, whole]
    omega
  · rw [fractionField_eq, whole]
    omega

/-- A zero. -/
theorem of_pack_zero (packed : x.toModel = pack (.zero s)) :
    x.isFinite = true ∧ sign x = s ∧ significand x = 0 ∧ exponent x = -1074 := by
  have bits : x.toBits.toBitVec = UnpackedFloat.packComponents .binary64 s 0 0 :=
    congrArg (fun model => model.toBits.toBitVec) packed
  obtain ⟨sign, field, fraction⟩ := fields_of_packComponents bits
  replace field : exponentField x = 0 := field
  refine ⟨isFinite_iff.2 (by omega), sign, ?_, if_pos field⟩
  unfold significand
  rw [if_pos field]
  exact fraction

theorem pack_finite (s : Sign) (m : ℕ) (e : ℤ) (positive : 0 < m) :
    UnpackedFloat.pack .binary64 (.finite s m e positive)
      = if 2 ^ 11 ≤ (e + 1075).toNat + 1 then
          UnpackedFloat.packComponents .binary64 s (-1#11) 0#52
        else if m.log2 + 1 = 53 then
          UnpackedFloat.packComponents .binary64 s (.ofNat 11 (e + 1075).toNat) (.ofNat 52 m)
        else UnpackedFloat.packComponents .binary64 s 0#11 (.ofNat 52 m) := by
  have biased : e + (1023 : ℕ) + (52 : ℕ) = e + 1075 := by omega
  rw [← biased]
  rfl

/-- A number with its bits in place and an exponent that is not too large. -/
theorem of_pack_finite {positive : 0 < m} (short : m < 2 ^ 53)
    (place : 2 ^ 52 ≤ m ∧ -1074 ≤ e ∨ e = -1074) (small : e ≤ 971)
    (packed : x.toModel = pack (.finite s m e positive)) :
    x.isFinite = true ∧ sign x = s ∧ significand x = m ∧ exponent x = e := by
  have bits : x.toBits.toBitVec = UnpackedFloat.pack .binary64 (.finite s m e positive) :=
    congrArg (fun model => model.toBits.toBitVec) packed
  rw [pack_finite, if_neg (show ¬2 ^ 11 ≤ (e + 1075).toNat + 1 by omega)] at bits
  by_cases normal : 2 ^ 52 ≤ m
  · have log : m.log2 = 52 := (Nat.log2_eq_iff positive.ne').2 ⟨normal, short⟩
    rw [if_pos (show m.log2 + 1 = 53 by omega)] at bits
    obtain ⟨sign, field, fraction⟩ := fields_of_packComponents bits
    have field : exponentField x = (e + 1075).toNat := by
      rw [field, BitVec.toNat_ofNat]
      exact Nat.mod_eq_of_lt (by omega)
    have fraction : fractionField x = m - 2 ^ 52 := by
      rw [fraction, BitVec.toNat_ofNat]
      omega
    have inner : exponentField x ≠ 0 := by omega
    refine ⟨isFinite_iff.2 (by omega), sign, ?_, ?_⟩
    · unfold significand
      rw [if_neg inner]
      show fractionField x + 2 ^ 52 = m
      omega
    · unfold exponent
      rw [if_neg inner]
      omega
  · have log : m.log2 < 52 := (Nat.log2_lt positive.ne').2 (not_le.1 normal)
    rw [if_neg (show ¬m.log2 + 1 = 53 by omega)] at bits
    obtain ⟨sign, field, fraction⟩ := fields_of_packComponents bits
    replace field : exponentField x = 0 := field
    have fraction : fractionField x = m := by
      rw [fraction, BitVec.toNat_ofNat]
      exact Nat.mod_eq_of_lt (not_le.1 normal)
    refine ⟨isFinite_iff.2 (by omega), sign, ?_, ?_⟩
    · unfold significand
      rw [if_pos field, fraction]
    · unfold exponent
      rw [if_pos field]
      omega

/-- A number with too large an exponent is packed as an infinity. -/
theorem of_pack_large {positive : 0 < m} (large : 971 < e)
    (packed : x.toModel = pack (.finite s m e positive)) :
    x.isFinite = false ∧ sign x = s := by
  have bits : x.toBits.toBitVec = UnpackedFloat.pack .binary64 (.finite s m e positive) :=
    congrArg (fun model => model.toBits.toBitVec) packed
  rw [pack_finite, if_pos (show 2 ^ 11 ≤ (e + 1075).toNat + 1 by omega)] at bits
  obtain ⟨sign, field, -⟩ := fields_of_packComponents bits
  replace field : exponentField x = 2047 := field
  exact ⟨Bool.eq_false_iff.2 fun finite => isFinite_iff.1 finite field, sign⟩

end PartPlan.Number
