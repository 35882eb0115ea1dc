/-
Arithmetic on infinities and NaN. NaN is passed on by every operation, and so is an
infinity, as itself or as NaN, with one exception: what a finite number divided by an
infinity comes to is a zero, in which nothing of the infinity is left. A division by
zero is an infinity or NaN.

The operations are those of the format on unpacked numbers, so each fact is a look at
the cases, and packing keeps what is no finite number apart from what is one.
-/
import PartPlan.Proofs.Number.Packing
import PartPlan.Scalar.Basic

namespace PartPlan.Number

open Float.Model (UnpackedFloat pack)

variable {x y : Float} {u v : UnpackedFloat}

-- ================================================================ packing

theorem packed_notANumber (packed : x.toModel = pack .notANumber) :
    x.isNaN = true ∧ x.isFinite = false := by
  obtain rfl : x = .ofModel (pack .notANumber) := congrArg Float.ofModel packed
  decide

theorem packed_infinity {s : UnpackedFloat.Sign} (packed : x.toModel = pack (.infinity s)) :
    x.isNaN = false ∧ x.isFinite = false := by
  obtain rfl : x = .ofModel (pack (.infinity s)) := congrArg Float.ofModel packed
  cases s <;> decide

theorem packed_zero {s : UnpackedFloat.Sign} (packed : x.toModel = pack (.zero s)) :
    x.isFinite = true ∧ value x = 0 := by
  obtain ⟨finite, -, nothing, -⟩ := of_pack_zero packed
  have none : magnitude x = 0 := magnitude_eq_zero.2 nothing
  refine ⟨finite, ?_⟩
  rw [value, none, neg_zero, ite_self]

/-- What is packed as a finite number was one before. -/
theorem isFinite_of_packed (packed : x.toModel = pack u) (finite : x.isFinite = true) :
    u.isFinite = true := by
  cases u with
  | notANumber => exact absurd finite (by rw [(packed_notANumber packed).2]; decide)
  | infinity s => exact absurd finite (by rw [(packed_infinity packed).2]; decide)
  | zero s => rfl
  | finite s m e positive => rfl

theorem isNaN_of_packed (packed : x.toModel = pack u) (number : x.isNaN = false) :
    u.isNaN = false := by
  cases u with
  | notANumber => exact absurd number (by rw [(packed_notANumber packed).1]; decide)
  | infinity s => rfl
  | zero s => rfl
  | finite s m e positive => rfl

-- ============================================================= operations

/-- An operator on unpacked numbers. -/
def onUnpacked : Operator → UnpackedFloat → UnpackedFloat → UnpackedFloat
  | .add => UnpackedFloat.add .binary64
  | .sub => UnpackedFloat.sub .binary64
  | .mul => UnpackedFloat.mul .binary64
  | .div => UnpackedFloat.div .binary64

theorem toModel_apply (op : Operator) (x y : Float) :
    (op.apply x y).toModel = pack (onUnpacked op x.toModel.unpack y.toModel.unpack) := by
  cases op <;> rfl

theorem toModel_neg (x : Float) : (-x).toModel = pack (UnpackedFloat.neg x.toModel.unpack) := rfl

theorem operands_of_isNaN {op : Operator} (h : (onUnpacked op u v).isNaN = false) :
    u.isNaN = false ∧ v.isNaN = false := by
  cases u with
  | notANumber => cases op <;> cases h
  | infinity s =>
    cases v with
    | notANumber => cases op <;> cases h
    | _ => exact ⟨rfl, rfl⟩
  | zero s =>
    cases v with
    | notANumber => cases op <;> cases h
    | _ => exact ⟨rfl, rfl⟩
  | finite s m e positive =>
    cases v with
    | notANumber => cases op <;> cases h
    | _ => exact ⟨rfl, rfl⟩

/-- Only a division loses an infinity, and then it comes to a zero. -/
theorem operands_of_isFinite {op : Operator} (h : (onUnpacked op u v).isFinite = true) :
    u.isFinite = true ∧ (v.isFinite = true
      ∨ op = .div ∧ v.isInf = true ∧ ∃ s, onUnpacked op u v = .zero s) := by
  cases u with
  | notANumber => cases op <;> cases h
  | infinity s =>
    cases v with
    | infinity t => cases op <;> cases s <;> cases t <;> cases h
    | _ => cases op <;> cases h
  | zero s =>
    refine ⟨rfl, ?_⟩
    cases v with
    | notANumber => cases op <;> cases h
    | infinity t =>
      cases op with
      | div => exact .inr ⟨rfl, rfl, _, rfl⟩
      | _ => cases h
    | _ => exact .inl rfl
  | finite s m e positive =>
    refine ⟨rfl, ?_⟩
    cases v with
    | notANumber => cases op <;> cases h
    | infinity t =>
      cases op with
      | div => exact .inr ⟨rfl, rfl, _, rfl⟩
      | _ => cases h
    | _ => exact .inl rfl

theorem zero_of_div_infinity (h : u.isFinite = true) (infinite : v.isInf = true) :
    ∃ s, onUnpacked .div u v = .zero s := by
  cases v with
  | infinity t =>
    cases u with
    | notANumber | infinity s => cases h
    | _ => exact ⟨_, rfl⟩
  | _ => cases infinite

theorem not_isFinite_div_zero (u : UnpackedFloat) (s : UnpackedFloat.Sign) :
    (onUnpacked .div u (.zero s)).isFinite = false := by
  cases u <;> rfl

-- ================================================================ numbers

/-- A number that is not NaN has operands that are not. -/
theorem number_operands {op : Operator} (h : (op.apply x y).isNaN = false) :
    x.isNaN = false ∧ y.isNaN = false :=
  operands_of_isNaN (isNaN_of_packed (toModel_apply op x y) h)

/-- A finite number has finite operands, but that it may be a zero that was divided
by an infinity. -/
theorem finite_operands {op : Operator} (h : (op.apply x y).isFinite = true) :
    x.isFinite = true ∧ (y.isFinite = true
      ∨ op = .div ∧ y.isInf = true ∧ value (op.apply x y) = 0) := by
  have packed := toModel_apply op x y
  obtain ⟨left, right⟩ := operands_of_isFinite (isFinite_of_packed packed h)
  refine ⟨left, right.imp_right fun lost => ?_⟩
  obtain ⟨divides, infinite, s, zero⟩ := lost
  exact ⟨divides, infinite, (packed_zero (zero ▸ packed)).2⟩

/-- A finite number divided by an infinity is a zero. -/
theorem div_infinity (hx : x.isFinite = true) (infinite : y.isInf = true) :
    (x / y).isFinite = true ∧ value (x / y) = 0 := by
  obtain ⟨s, zero⟩ := zero_of_div_infinity (u := x.toModel.unpack) hx infinite
  exact packed_zero ((toModel_apply .div x y).trans (congrArg pack zero))

theorem finite_of_neg (h : (-x).isFinite = true) : x.isFinite = true := by
  have unpacked := isFinite_of_packed (toModel_neg x) h
  show x.toModel.unpack.isFinite = true
  cases same : x.toModel.unpack with
  | notANumber | infinity s =>
    rw [same] at unpacked
    cases unpacked
  | _ => rfl

theorem number_of_neg (h : (-x).isNaN = false) : x.isNaN = false := by
  have unpacked := isNaN_of_packed (toModel_neg x) h
  show x.toModel.unpack.isNaN = false
  cases same : x.toModel.unpack with
  | notANumber =>
    rw [same] at unpacked
    cases unpacked
  | _ => rfl

/-- No number divided by a zero is finite. -/
theorem not_finite_of_div_zero (finite : y.isFinite = true) (zero : value y = 0) :
    (x / y).isFinite = false := by
  obtain ⟨s, unpacked⟩ : ∃ s, y.toModel.unpack = .zero s := by
    rcases unpack_cases finite with ⟨here, -⟩ | ⟨-, size, some⟩ | ⟨-, size, some⟩
    · exact here
    · exact absurd (size.symm.trans zero) some.ne'
    · exact absurd (neg_eq_zero.1 (size.symm.trans zero)) some.ne'
  by_contra h
  have kept := isFinite_of_packed (toModel_apply .div x y) (Bool.not_eq_false _ ▸ h)
  rw [unpacked, not_isFinite_div_zero] at kept
  cases kept

end PartPlan.Number
