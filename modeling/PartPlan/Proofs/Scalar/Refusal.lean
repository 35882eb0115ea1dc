/-
Why a scalar is refused. Each leaf of a scalar is asked for itself whether it can stand
where a dimension is expected (`Leaf.Acceptable`), and one that cannot is refused for a
reason of its own (`Leaf.Refused`). A scalar has a number if all of its leaves can stand
there, and otherwise it is refused as the leftmost of those that cannot
(`Scalar.eval_eq_error`).

What the operators come to has no part in this. The right operand is evaluated whatever
number the left one is, so an operand that is refused is not passed over for being
multiplied by zero or divided by it.

The induction is on the scalar and carries what it fails with, if it does. That is for an
operation what the left operand fails with, or else the right one, which is how its
leaves stand in a row.
-/
import PartPlan.Proofs.Scalar.Finite

namespace PartPlan

-- ================================================================== leaves

/-- A leaf of a scalar. -/
inductive Leaf where
  /-- A bare number. -/
  | number (x : Float)
  /-- A literal that may carry a unit. -/
  | literal (x : Float) (unit : Option String)
  /-- A parameter. -/
  | param (id : String)
  deriving DecidableEq, Repr

/-- The leaves of a scalar, from left to right. -/
def Scalar.leaves : Scalar → List Leaf
  | value x => [.number x]
  | literal x unit => [.literal x unit]
  | param id => [.param id]
  | binary _ left right => left.leaves ++ right.leaves
  | neg operand => operand.leaves

namespace Leaf

/-- A leaf as a scalar of its own. -/
def scalar : Leaf → Scalar
  | number x => .value x
  | literal x unit => .literal x unit
  | param id => .param id

variable (table : ParamTable) (expected : Dimension)

/-- A bare number and a literal without a unit can stand anywhere. A unit has to be known
and to measure what is expected, and a parameter has to be defined as that or as a
count. -/
def Acceptable : Leaf → Prop
  | number _ => True
  | literal _ none => True
  | literal _ (some unit) => expected.HasUnit unit
  | param id => ∃ p, table.values.find? id = some p
    ∧ (p.dimension = expected ∨ p.dimension = .count)

/-- A leaf cannot stand where a dimension is expected, and for what reason. -/
inductive Refused : Leaf → ValidationError → Prop
  | unitUnknown {x : Float} {unit : String} (unknown : LiteralUnit.ofName? unit = none) :
    Refused (literal x (some unit)) (.unitUnknown unit)
  | unitMismatch {x : Float} {unit : String} {u : LiteralUnit}
    (known : LiteralUnit.ofName? unit = some u) (other : u.dimension ≠ expected) :
    Refused (literal x (some unit)) (.unitMismatch unit expected)
  | paramMissing {id : String} (undefined : table.values.find? id = none) :
    Refused (param id) (.paramMissing id)
  | paramType {id : String} {p : ParamValue} (defined : table.values.find? id = some p)
    (other : p.dimension ≠ expected) (measured : p.dimension ≠ .count) :
    Refused (param id) (.paramType id p.dimension expected)

variable {table expected} {leaf : Leaf} {e : ValidationError}

/-- A leaf can stand where a dimension is expected, or is refused. -/
theorem acceptable_or_refused (leaf : Leaf) :
    leaf.Acceptable table expected ∨ ∃ e, leaf.Refused table expected e := by
  cases leaf with
  | number x => exact .inl trivial
  | literal x unit =>
    cases unit with
    | none => exact .inl trivial
    | some unit =>
      cases named : LiteralUnit.ofName? unit with
      | none => exact .inr ⟨_, .unitUnknown named⟩
      | some u =>
        by_cases same : u.dimension = expected
        · exact .inl ⟨u, named, same⟩
        · exact .inr ⟨_, .unitMismatch named same⟩
  | param id =>
    cases bound : table.values.find? id with
    | none => exact .inr ⟨_, .paramMissing bound⟩
    | some p =>
      by_cases usable : p.dimension = expected ∨ p.dimension = .count
      · exact .inl ⟨p, bound, usable⟩
      · obtain ⟨other, measured⟩ := not_or.1 usable
        exact .inr ⟨_, .paramType bound other measured⟩

theorem Acceptable.eval (h : leaf.Acceptable table expected) :
    ∃ x, leaf.scalar.eval table expected = .ok x := by
  cases leaf with
  | number x => exact ⟨x, rfl⟩
  | literal x unit =>
    cases unit with
    | none => exact ⟨x, rfl⟩
    | some unit =>
      obtain ⟨u, named, measures⟩ := h
      refine ⟨u.inPart table.units x, ?_⟩
      rw [scalar, Scalar.eval, convert_of_unit named, if_pos measures]
      rfl
  | param id =>
    obtain ⟨p, bound, usable⟩ := h
    refine ⟨p.value, ?_⟩
    rw [scalar, Scalar.eval, Scalar.evalParam, bound]
    exact if_pos (Dimension.usableAs_iff.2 usable)

theorem Refused.eval (h : leaf.Refused table expected e) :
    leaf.scalar.eval table expected = .error e := by
  cases h with
  | unitUnknown unknown =>
    rw [scalar, Scalar.eval, convert, unknown]
    rfl
  | unitMismatch known other =>
    rw [scalar, Scalar.eval, convert_of_unit known, if_neg other]
    rfl
  | paramMissing undefined => rw [scalar, Scalar.eval, Scalar.evalParam, undefined]
  | paramType defined other measured =>
    rw [scalar, Scalar.eval, Scalar.evalParam, defined]
    exact if_neg fun usable => (Dimension.usableAs_iff.1 usable).elim other measured

theorem exists_eval_eq_ok :
    (∃ x, leaf.scalar.eval table expected = .ok x) ↔ leaf.Acceptable table expected := by
  refine ⟨fun ⟨x, evaluated⟩ => ?_, Acceptable.eval⟩
  refine leaf.acceptable_or_refused.resolve_right fun ⟨e, refused⟩ => ?_
  rw [refused.eval] at evaluated
  cases evaluated

theorem eval_scalar_eq_error :
    leaf.scalar.eval table expected = .error e ↔ leaf.Refused table expected e := by
  refine ⟨fun evaluated => ?_, Refused.eval⟩
  rcases leaf.acceptable_or_refused with acceptable | ⟨e', refused⟩
  · obtain ⟨x, accepted⟩ := acceptable.eval
    rw [accepted] at evaluated
    cases evaluated
  · rw [refused.eval] at evaluated
    cases evaluated
    exact refused

end Leaf

-- ================================================================= scalars

namespace Scalar

variable {table : ParamTable} {expected : Dimension} {s t : Scalar} {e : ValidationError}

theorem exists_eval_eq_ok : (∃ x, s.eval table expected = .ok x) ↔ s.Fits table expected := by
  simp [eval_eq_ok]

/-- A scalar fits exactly if all of its leaves can stand there. -/
theorem fits_iff_leaves :
    s.Fits table expected ↔ ∀ leaf ∈ s.leaves, leaf.Acceptable table expected := by
  have alone : ∀ leaf : Leaf, leaf.scalar.Fits table expected
      ↔ ∀ other ∈ [leaf], other.Acceptable table expected := by
    intro leaf
    rw [List.forall_mem_singleton, ← exists_eval_eq_ok, Leaf.exists_eval_eq_ok]
  induction s with
  | value x => exact alone (.number x)
  | literal x unit => exact alone (.literal x unit)
  | param id => exact alone (.param id)
  | binary op left right ihl ihr =>
    exact fits_binary.trans ((and_congr ihl ihr).trans List.forall_mem_append.symm)
  | neg operand ih => exact fits_neg.trans ih

/-- A scalar fails as the first of its leaves that does. -/
theorem failure?_eval (table : ParamTable) (expected : Dimension) (s : Scalar) :
    Checked.failure? (s.eval table expected)
      = s.leaves.findSome? fun leaf => Checked.failure? (leaf.scalar.eval table expected) := by
  have alone : ∀ leaf : Leaf, Checked.failure? (leaf.scalar.eval table expected)
      = [leaf].findSome? fun leaf => Checked.failure? (leaf.scalar.eval table expected) :=
    fun leaf => List.findSome?_singleton.symm
  induction s with
  | value x => exact alone (.number x)
  | literal x unit => exact alone (.literal x unit)
  | param id => exact alone (.param id)
  | binary op left right ihl ihr =>
    rw [eval, Checked.failure?_both, leaves, List.findSome?_append, ihl, ihr]
  | neg operand ih =>
    rw [leaves, ← ih, eval]
    cases operand.eval table expected <;> rfl

/-- A scalar is refused as the leftmost of its leaves that cannot stand there. -/
theorem eval_eq_error :
    s.eval table expected = .error e ↔ ∃ before leaf after, s.leaves = before ++ leaf :: after
      ∧ leaf.Refused table expected e ∧ ∀ other ∈ before, other.Acceptable table expected := by
  rw [← Checked.failure?_eq_some, failure?_eval, List.findSome?_eq_some_iff]
  simp only [Checked.failure?_eq_some, Checked.failure?_eq_none, Leaf.exists_eval_eq_ok,
    Leaf.eval_scalar_eq_error]

/-- An operation is refused as its left operand is, or else as its right one, whatever
number the left one is. -/
theorem eval_binary_eq_error {op : Operator} {left right : Scalar} :
    (binary op left right).eval table expected = .error e
      ↔ left.eval table expected = .error e
        ∨ (∃ x, left.eval table expected = .ok x) ∧ right.eval table expected = .error e := by
  rw [eval, Checked.bind_eq_error]
  refine or_congr_right ⟨?_, ?_⟩
  · rintro ⟨x, evaluated, rest⟩
    rcases Checked.bind_eq_error.1 rest with refused | ⟨y, -, done⟩
    · exact ⟨⟨x, evaluated⟩, refused⟩
    · cases done
  · rintro ⟨⟨x, evaluated⟩, refused⟩
    exact ⟨x, evaluated, Checked.bind_eq_error.2 (.inl refused)⟩

/-- Whatever stands in a scalar, the scalar is refused if that is. -/
theorem eval_error_of_within (inside : t.Within s) (refused : t.eval table expected = .error e) :
    ∃ e', s.eval table expected = .error e' := by
  cases evaluated : s.eval table expected with
  | error e' => exact ⟨e', rfl⟩
  | ok x =>
    obtain ⟨fits, -⟩ := eval_eq_ok.1 evaluated
    obtain ⟨y, accepted⟩ := exists_eval_eq_ok.2 (fits.within inside)
    rw [accepted] at refused
    cases refused

/-- A scalar is checked leaf by leaf. It has a number exactly if each of its leaves can
stand where the dimension is expected, and then that is what the operators come to on the
numbers of the leaves. Otherwise it is refused as the leftmost leaf that cannot stand
there, which is refused on its own as well. No operator passes over an operand that is
refused, whatever number the other operand is. -/
theorem eval_leafwise (table : ParamTable) (expected : Dimension) (s : Scalar) :
    (∀ x, s.eval table expected = .ok x
      ↔ (∀ leaf ∈ s.leaves, leaf.Acceptable table expected)
        ∧ x = s.compute table.units table.number)
    ∧ (∀ e, s.eval table expected = .error e
      ↔ ∃ before leaf after, s.leaves = before ++ leaf :: after
        ∧ leaf.Refused table expected e ∧ ∀ other ∈ before, other.Acceptable table expected)
    ∧ (∀ leaf : Leaf,
      ((∃ x, leaf.scalar.eval table expected = .ok x) ↔ leaf.Acceptable table expected)
      ∧ ∀ e, leaf.scalar.eval table expected = .error e ↔ leaf.Refused table expected e)
    ∧ (∀ t : Scalar, t.Within s → ∀ e, t.eval table expected = .error e →
      ∃ e', s.eval table expected = .error e')
    ∧ ∀ (op : Operator) (left right : Scalar) (e : ValidationError),
      (binary op left right).eval table expected = .error e
        ↔ left.eval table expected = .error e
          ∨ (∃ x, left.eval table expected = .ok x) ∧ right.eval table expected = .error e := by
  refine ⟨fun x => ?number, fun e => eval_eq_error, fun leaf => ?alone,
    fun t inside e => eval_error_of_within inside, fun op left right e => eval_binary_eq_error⟩
  case number => rw [eval_eq_ok, fits_iff_leaves]
  case alone => exact ⟨Leaf.exists_eval_eq_ok, fun e => Leaf.eval_scalar_eq_error⟩

end Scalar

/-- What is known of a shelf. -/
def shelf : ParamTable :=
  ⟨.cm, .ofList [("tilt", ⟨.angle, 30⟩), ("boards", ⟨.count, 0⟩)]⟩

/-- No boards, times a tilt in furlongs. -/
def emptyShelf : Scalar :=
  .binary .mul (.param "boards") (.binary .div (.param "tilt") (.literal 2 (some "furlong")))

/-- That there are no boards does not matter. What is wrong as a length is the tilt, and
what is wrong as an angle the unit. -/
theorem emptyShelf_refused :
    (Scalar.param "boards").eval shelf .length = .ok 0
      ∧ emptyShelf.eval shelf .length = .error (.paramType "tilt" .angle .length)
      ∧ emptyShelf.eval shelf .angle = .error (.unitUnknown "furlong")
      ∧ ∃ e, emptyShelf.eval shelf .count = .error e := by
  obtain ⟨-, length, -⟩ := Scalar.eval_leafwise shelf .length emptyShelf
  obtain ⟨-, angle, -⟩ := Scalar.eval_leafwise shelf .angle emptyShelf
  obtain ⟨-, -, -, within, -⟩ := Scalar.eval_leafwise shelf .count emptyShelf
  have boards : shelf.values.find? "boards" = some ⟨.count, 0⟩ := by decide +kernel
  have tilt : shelf.values.find? "tilt" = some ⟨.angle, 30⟩ := by decide +kernel
  have unknown : LiteralUnit.ofName? "furlong" = none := by decide +kernel
  refine ⟨by decide +kernel, ?_, ?_, ?_⟩
  · refine (length _).2 ⟨[.param "boards"], .param "tilt", [.literal 2 (some "furlong")], rfl,
      .paramType tilt (by decide) (by decide), ?_⟩
    exact List.forall_mem_singleton.2 ⟨_, boards, .inr rfl⟩
  · refine (angle _).2 ⟨[.param "boards", .param "tilt"], .literal 2 (some "furlong"), [], rfl,
      .unitUnknown unknown, ?_⟩
    exact List.forall_mem_cons.2 ⟨⟨_, boards, .inr rfl⟩,
      List.forall_mem_singleton.2 ⟨_, tilt, .inl rfl⟩⟩
  · exact within (.param "tilt") (.right (.left (.here _))) (.paramType "tilt" .angle .count)
      (by decide +kernel)

end PartPlan
