/-
What a finite result says of the scalars inside. Evaluation tests only its result, so
the question is which numbers on the way can be other than finite without a trace.

NaN cannot: every operator passes it on. Nor can an infinity, but in one place. What is
divided by an infinity comes to zero, so an infinite divisor is lost, and with it
whatever stands in it (`Scalar.Lost`): five divided by a division by zero is zero. Where
no divisor is infinite, nothing is lost, and a result is finite exactly if every scalar
on the way is.

The induction is on where a scalar stands in another (`Scalar.Within`), from the outside
inwards, by what a result says of the operands.
-/
import PartPlan.Proofs.Number.Infinite
import PartPlan.Proofs.Scalar.Leaves

namespace PartPlan

namespace Scalar

/-- A scalar stands in another: it is that scalar, or stands in one of its operands. -/
inductive Within : Scalar → Scalar → Prop
  | here (s : Scalar) : Within s s
  | left {s l r : Scalar} {op : Operator} (within : Within s l) : Within s (binary op l r)
  | right {s l r : Scalar} {op : Operator} (within : Within s r) : Within s (binary op l r)
  | neg {s operand : Scalar} (within : Within s operand) : Within s (neg operand)

variable {table : ParamTable} {d : Dimension} {system : UnitSystem} {number : String → Float}
  {s t : Scalar}

/-- What fits in a scalar that fits. -/
theorem Fits.within (h : s.Fits table d) (inside : t.Within s) : t.Fits table d := by
  induction inside with
  | here => exact h
  | left _ ih => exact ih (fits_binary.1 h).1
  | right _ ih => exact ih (fits_binary.1 h).2
  | neg _ ih => exact ih (fits_neg.1 h)

/-- Nothing in a scalar that is not NaN is NaN. -/
theorem isNaN_within (inside : t.Within s) (h : (s.compute system number).isNaN = false) :
    (t.compute system number).isNaN = false := by
  induction inside with
  | here => exact h
  | left _ ih => exact ih (Number.number_operands h).1
  | right _ ih => exact ih (Number.number_operands h).2
  | neg _ ih => exact ih (Number.number_of_neg h)

/-- Somewhere in a scalar the divisor is infinite. -/
def DividesByInfinity (system : UnitSystem) (number : String → Float) (s : Scalar) : Prop :=
  ∃ l r, (binary .div l r).Within s ∧ (r.compute system number).isInf = true

/-- A scalar stands in an infinite divisor, and the division comes to zero. -/
def Lost (system : UnitSystem) (number : String → Float) (s t : Scalar) : Prop :=
  ∃ l r, (binary .div l r).Within s ∧ t.Within r ∧ (r.compute system number).isInf = true
    ∧ Number.value ((binary .div l r).compute system number) = 0

/-- What is lost in an operand is lost. -/
theorem Lost.mono {u : Scalar} (h : Lost system number s t)
    (outward : ∀ v : Scalar, v.Within s → v.Within u) : Lost system number u t := by
  obtain ⟨l, r, division, inside, infinite, zero⟩ := h
  exact ⟨l, r, outward _ division, inside, infinite, zero⟩

/-- Whatever stands in a finite scalar is finite, unless it is lost. -/
theorem isFinite_within (inside : t.Within s) (h : (s.compute system number).isFinite = true) :
    (t.compute system number).isFinite = true ∨ Lost system number s t := by
  induction inside with
  | here => exact .inl h
  | left _ ih =>
    exact (ih (Number.finite_operands h).1).imp_right fun lost => lost.mono fun _ => .left
  | @right l r op inside ih =>
    rcases (Number.finite_operands h).2 with finite | ⟨rfl, infinite, zero⟩
    · exact (ih finite).imp_right fun lost => lost.mono fun _ => .right
    · exact .inr ⟨l, r, .here _, inside, infinite, zero⟩
  | neg _ ih =>
    exact (ih (Number.finite_of_neg h)).imp_right fun lost => lost.mono fun _ => .neg

/-- Where no divisor is infinite, a scalar is finite exactly if all that stands in it is. -/
theorem isFinite_iff_within (none : ¬ DividesByInfinity system number s) :
    (s.compute system number).isFinite = true
      ↔ ∀ t : Scalar, t.Within s → (t.compute system number).isFinite = true := by
  refine ⟨fun h t inside => (isFinite_within inside h).resolve_right ?_, fun h => h s (.here s)⟩
  rintro ⟨l, r, division, -, infinite, -⟩
  exact none ⟨l, r, division, infinite⟩

/-- Each scalar that stands in a scalar has a finite number. -/
def FiniteThroughout (table : ParamTable) (d : Dimension) (s : Scalar) : Prop :=
  ∀ t : Scalar, t.Within s → ∃ x, t.eval table d = .ok x ∧ x.isFinite = true

theorem Fits.finiteThroughout_iff (h : s.Fits table d) :
    s.FiniteThroughout table d ↔
      ∀ t : Scalar, t.Within s → (t.compute table.units table.number).isFinite = true := by
  refine forall₂_congr fun t inside => ⟨?_, fun finite => ?_⟩
  · rintro ⟨x, evaluated, finite⟩
    exact (eval_eq_ok.1 evaluated).2 ▸ finite
  · exact ⟨_, eval_eq_ok.2 ⟨h.within inside, rfl⟩, finite⟩

/-- Where a divisor is zero, the division has no finite number. -/
theorem not_finiteThroughout_of_div_zero {l r : Scalar} {x : Float}
    (division : (binary .div l r).Within s) (divisor : r.eval table d = .ok x)
    (finite : x.isFinite = true) (zero : Number.value x = 0) : ¬ s.FiniteThroughout table d := by
  intro all
  obtain ⟨y, evaluated, kept⟩ := all _ division
  obtain ⟨-, rfl⟩ := eval_eq_ok.1 evaluated
  obtain ⟨-, rfl⟩ := eval_eq_ok.1 divisor
  exact absurd kept (Bool.eq_false_iff.1 (Number.not_finite_of_div_zero finite zero))

end Scalar

namespace ParamTable

variable {table : ParamTable} {s : Scalar} {d : Dimension} {place : String} {x : Float}

theorem evaluate_of_eval (h : s.eval table d = .ok x) :
    table.evaluate s d place = if x.isFinite then .ok x else .error (.nonFinite place) := by
  rw [evaluate, h]
  rfl

theorem evaluate_eq_ok :
    table.evaluate s d place = .ok x ↔ s.eval table d = .ok x ∧ x.isFinite = true := by
  constructor
  · intro accepted
    obtain ⟨y, evaluated, tested⟩ := Checked.bind_eq_ok.1 accepted
    split at tested
    · next finite =>
      obtain rfl := Except.ok.inj tested
      exact ⟨evaluated, finite⟩
    · cases tested
  · rintro ⟨evaluated, finite⟩
    rw [evaluate_of_eval evaluated, if_pos finite]

/-- What the answer to a scalar says of the scalars in it. When it is accepted, each has
a number that is not NaN, and that is finite unless it is lost in an infinite divisor.
The latter does happen: a finite number divided by an infinite one is accepted as zero.
Where no divisor is infinite, a scalar is accepted exactly if every scalar in it is
finite, and refused as not finite if there are numbers and one of them is not, as the
one of a division by zero is. -/
theorem evaluate_within (table : ParamTable) (s : Scalar) (d : Dimension) (place : String) :
    (∀ x, table.evaluate s d place = .ok x → ∀ t : Scalar, t.Within s →
      ∃ y, t.eval table d = .ok y ∧ y.isNaN = false
        ∧ (y.isFinite = true ∨ s.Lost table.units table.number t))
    ∧ (∀ l r x y, s = .binary .div l r → l.eval table d = .ok x → x.isFinite = true →
      r.eval table d = .ok y → y.isInf = true →
      ∃ z, table.evaluate s d place = .ok z ∧ Number.value z = 0)
    ∧ (¬ s.DividesByInfinity table.units table.number →
      ((∃ x, table.evaluate s d place = .ok x) ↔ s.FiniteThroughout table d)
      ∧ ∀ x, s.eval table d = .ok x →
        (table.evaluate s d place = .error (.nonFinite place) ↔ ¬ s.FiniteThroughout table d))
    ∧ ∀ l r x, (Scalar.binary .div l r).Within s → r.eval table d = .ok x → x.isFinite = true →
      Number.value x = 0 → ¬ s.FiniteThroughout table d := by
  refine ⟨fun x accepted t inside => ?kept, fun l r x y same left finite right infinite => ?lost,
    fun none => ?whole, fun l r x => Scalar.not_finiteThroughout_of_div_zero⟩
  case kept =>
    obtain ⟨evaluated, finite⟩ := evaluate_eq_ok.1 accepted
    obtain ⟨fits, rfl⟩ := Scalar.eval_eq_ok.1 evaluated
    refine ⟨_, Scalar.eval_eq_ok.2 ⟨fits.within inside, rfl⟩, ?_,
      Scalar.isFinite_within inside finite⟩
    exact Scalar.isNaN_within inside (Number.isNaN_of_isFinite finite)
  case lost =>
    obtain ⟨fitsLeft, rfl⟩ := Scalar.eval_eq_ok.1 left
    obtain ⟨fitsRight, rfl⟩ := Scalar.eval_eq_ok.1 right
    obtain ⟨kept, zero⟩ := Number.div_infinity finite infinite
    refine ⟨_, evaluate_eq_ok.2 ⟨Scalar.eval_eq_ok.2 ⟨?_, rfl⟩, ?_⟩, ?_⟩
    · exact same ▸ Scalar.fits_binary.2 ⟨fitsLeft, fitsRight⟩
    · exact same ▸ kept
    · exact same ▸ zero
  case whole =>
    have finite_iff : ∀ x, s.eval table d = .ok x →
        (x.isFinite = true ↔ s.FiniteThroughout table d) := by
      intro x evaluated
      obtain ⟨fits, rfl⟩ := Scalar.eval_eq_ok.1 evaluated
      exact (Scalar.isFinite_iff_within none).trans fits.finiteThroughout_iff.symm
    refine ⟨⟨fun accepted => ?_, fun all => ?_⟩, fun x evaluated => ?_⟩
    · obtain ⟨x, accepted⟩ := accepted
      obtain ⟨evaluated, finite⟩ := evaluate_eq_ok.1 accepted
      exact (finite_iff x evaluated).1 finite
    · obtain ⟨x, evaluated, finite⟩ := all s (.here s)
      exact ⟨x, evaluate_eq_ok.2 ⟨evaluated, finite⟩⟩
    · rw [evaluate_of_eval evaluated, ← finite_iff x evaluated]
      split
      · next finite =>
        refine iff_of_false (fun refused => ?_) (not_not_intro finite)
        cases refused
      · next not => exact iff_of_true rfl not

end ParamTable

/-- Ten quarters. -/
def tenQuarters : Scalar := .binary .div (.value 10) (.value 4)

/-- Nothing in ten quarters divides by an infinity, so all of it is finite. -/
theorem tenQuarters_finite :
    (ParamTable.empty .mm).evaluate tenQuarters .length "depth" = .ok 2.5
      ∧ tenQuarters.FiniteThroughout (.empty .mm) .length := by
  have accepted : (ParamTable.empty .mm).evaluate tenQuarters .length "depth" = .ok 2.5 := by
    decide +kernel
  have answers := ParamTable.evaluate_within (.empty .mm) tenQuarters .length "depth"
  refine ⟨accepted, (answers.2.2.1 ?_).1.1 ⟨2.5, accepted⟩⟩
  rintro ⟨l, r, division, infinite⟩
  cases division with
  | here => exact absurd infinite (by decide)
  | left inside => cases inside
  | right inside => cases inside

/-- Five, divided by a division of one by zero. -/
def fiveByNothing : Scalar := .binary .div (.value 5) (.binary .div (.value 1) (.value 0))

/-- A division by zero that stands in a divisor is not seen: the whole is accepted as
zero, though the divisor alone is refused. -/
theorem fiveByNothing_accepted :
    ∃ table, ParamTable.build [] .empty .mm = .ok table
      ∧ table.evaluate fiveByNothing .length "depth" = .ok 0
      ∧ ∃ divisor, divisor.Within fiveByNothing
        ∧ table.evaluate divisor .length "depth" = .error (.nonFinite "depth") := by
  refine ⟨.empty .mm, rfl, by decide, _, .right (.here _), by decide⟩

end PartPlan
