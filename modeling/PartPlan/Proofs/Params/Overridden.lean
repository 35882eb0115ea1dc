/-
An override is a rewrite of a definition. Where an override stands in the place
of a definition, the definition might as well have been the given number: in
degrees if it defines an angle, which must not be a bare number, and otherwise as
it is. Both come to the same table or to the same error
(`ParamTable.build_overridden`), whatever stands before or after.

The scalar that an override replaces is not looked at at all: definitions that differ
in nothing else come to the same table or error (`ParamTable.build_interchangeable`).

What a table binds it keeps, because no parameter is defined twice. So from the
definition on, the override is what every scalar reads (`ParamTable.find?_given`).
-/
import PartPlan.Proofs.Params.Dependence

namespace PartPlan

/-- The scalar that is a given number where a dimension is required. -/
def Scalar.given : Dimension → Float → Scalar
  | .angle, x => .literal x (some "deg")
  | _, x => .value x

/-- Every override is a finite number for one of the definitions. -/
structure Overrides.Fits (overrides : Overrides) (defs : List ParamDef) : Prop where
  finite : ∀ id x, overrides.find? id = some x → x.isFinite = true
  declared : ∀ id ∈ overrides.keys, id ∈ defs.map ParamDef.id

-- ============================================================ definitions

namespace ParamDef

/-- A definition with its override, if there is one, in the place of its
scalar. -/
def overridden (overrides : Overrides) (d : ParamDef) : ParamDef :=
  { d with value := (overrides.find? d.id).elim d.value (Scalar.given d.dimension) }

variable {overrides : Overrides} {d : ParamDef} {x : Float}

theorem overridden_of_find? (h : overrides.find? d.id = some x) :
    d.overridden overrides = { d with value := Scalar.given d.dimension x } := by
  rw [overridden, h]
  rfl

theorem overridden_of_free (h : overrides.find? d.id = none) : d.overridden overrides = d := by
  rw [overridden, h]
  rfl

/-- A given number is what it says, whatever the table, and is no bare number
where an angle is defined. -/
theorem resolve_given (d : ParamDef) (finite : x.isFinite = true) (table : ParamTable) :
    ({ d with value := Scalar.given d.dimension x } : ParamDef).resolve .empty table = .ok x := by
  obtain ⟨id, dimension, value⟩ := d
  have evaluated : (Scalar.given dimension x).eval table dimension = .ok x := by
    cases dimension <;> rfl
  have measured : ¬ (dimension = .angle ∧ (Scalar.given dimension x).isUnitless = true) := by
    rintro ⟨rfl, bare⟩
    cases bare
  simp only [resolve, SortedMap.find?_empty, if_neg measured, ParamTable.evaluate, evaluated]
  exact if_pos finite

theorem resolve_override (finite : x.isFinite = true) (h : overrides.find? d.id = some x)
    (table : ParamTable) : d.resolve overrides table = .ok x := by
  rw [resolve, h]
  exact if_pos finite

theorem resolve_overridden (finite : ∀ x, overrides.find? d.id = some x → x.isFinite = true)
    (table : ParamTable) :
    (d.overridden overrides).resolve .empty table = d.resolve overrides table := by
  cases h : overrides.find? d.id with
  | some x =>
    rw [overridden_of_find? h, resolve_given d (finite x h), resolve_override (finite x h) h]
  | none =>
    rw [overridden_of_free h, resolve, resolve, h, SortedMap.find?_empty]

/-- Two definitions of one parameter that differ at most in a scalar that has an
override. -/
structure Interchangeable (overrides : Overrides) (d e : ParamDef) : Prop where
  id : d.id = e.id
  dimension : d.dimension = e.dimension
  value : overrides.find? d.id = none → d.value = e.value

theorem Interchangeable.resolve_eq {e : ParamDef} (h : d.Interchangeable overrides e)
    (table : ParamTable) : e.resolve overrides table = d.resolve overrides table := by
  rw [resolve, resolve, ← h.id]
  cases free : overrides.find? d.id with
  | some x => rfl
  | none =>
    simp only
    rw [h.dimension, h.value free]

end ParamDef

-- ================================================================= tables

namespace ParamTable

variable {overrides : Overrides} {defs : List ParamDef} {table next : ParamTable} {d : ParamDef}

theorem define_overridden (finite : ∀ id x, overrides.find? id = some x → x.isFinite = true) :
    define .empty table (d.overridden overrides) = define overrides table d := by
  have resolved := d.resolve_overridden (finite d.id) table
  unfold define
  rw [resolved]
  rfl

theorem define_interchangeable {e : ParamDef} (h : d.Interchangeable overrides e) :
    define overrides table e = define overrides table d := by
  unfold define
  rw [h.resolve_eq table, h.id, h.dimension]

/-- An accepted definition has not been there before. -/
theorem fresh_of_define (h : define overrides table d = .ok next) :
    table.values.contains d.id = false := by
  by_contra known
  rw [Bool.not_eq_false] at known
  unfold define at h
  rw [known] at h
  by_cases named : Text.isParamName d.id = true
  · rw [named] at h
    cases h
  · rw [Bool.not_eq_true] at named
    rw [named] at h
    cases h

/-- What is bound stays bound to the same value. -/
theorem find?_of_define (h : define overrides table d = .ok next) {id : String} {v : ParamValue}
    (bound : table.values.find? id = some v) : next.values.find? id = some v := by
  have fresh := fresh_of_define h
  obtain ⟨x, -, rfl⟩ := exists_of_define h
  rw [SortedMap.find?_insert, if_neg, bound]
  rintro rfl
  rw [SortedMap.contains, bound] at fresh
  cases fresh

theorem find?_of_foldlM (h : defs.foldlM (define overrides) table = .ok next) {id : String}
    {v : ParamValue} (bound : table.values.find? id = some v) :
    next.values.find? id = some v := by
  induction defs generalizing table with
  | nil =>
    cases h
    exact bound
  | cons d defs ih =>
    rw [List.foldlM_cons] at h
    obtain ⟨one, first, h⟩ := Checked.bind_eq_ok.1 h
    exact ih h (find?_of_define first bound)

/-- A definition is bound from its place on, and to nothing but what it was
resolved to there. -/
theorem exists_find?_of_foldlM (h : defs.foldlM (define overrides) table = .ok next)
    (hd : d ∈ defs) : ∃ before x, d.resolve overrides before = .ok x
      ∧ next.values.find? d.id = some ⟨d.dimension, x⟩ := by
  induction defs generalizing table with
  | nil => cases hd
  | cons e defs ih =>
    rw [List.foldlM_cons] at h
    obtain ⟨one, first, h⟩ := Checked.bind_eq_ok.1 h
    rcases List.mem_cons.1 hd with rfl | later
    · obtain ⟨x, resolved, rfl⟩ := exists_of_define first
      refine ⟨table, x, resolved, find?_of_foldlM h ?_⟩
      rw [SortedMap.find?_insert, if_pos rfl]
    · exact ih h later

/-- A definition with an override is bound to it. -/
theorem find?_given (finite : ∀ id x, overrides.find? id = some x → x.isFinite = true)
    (h : defs.foldlM (define overrides) table = .ok next) (hd : d ∈ defs) {x : Float}
    (given : overrides.find? d.id = some x) :
    next.values.find? d.id = some ⟨d.dimension, x⟩ := by
  obtain ⟨before, y, resolved, bound⟩ := exists_find?_of_foldlM h hd
  rw [ParamDef.resolve_override (finite _ _ given) given] at resolved
  rw [bound, Except.ok.inj resolved]

/-- What an override has replaced is never looked at. -/
theorem build_interchangeable {units : UnitSystem} {defs' : List ParamDef}
    (same : List.Forall₂ (ParamDef.Interchangeable overrides) defs defs') :
    build defs' overrides units = build defs overrides units := by
  have folded : ∀ table : ParamTable,
      defs'.foldlM (define overrides) table = defs.foldlM (define overrides) table := by
    induction same with
    | nil => exact fun _ => rfl
    | cons h _ ih =>
      intro table
      rw [List.foldlM_cons, List.foldlM_cons, define_interchangeable h]
      exact congrArg _ (funext ih)
  unfold build
  rw [folded]

/-- The table that the definitions come to stands if it has all overrides. -/
theorem build_of_foldlM {units : UnitSystem}
    (h : defs.foldlM (define overrides) (.empty units) = .ok table)
    (known : ∀ id ∈ overrides.keys, table.values.contains id = true) :
    build defs overrides units = .ok table := by
  refine Checked.bind_eq_ok.2 ⟨table, h, ?_⟩
  split
  · next id found =>
    have unknown := List.find?_some found
    rw [known id (List.mem_of_find?_eq_some found)] at unknown
    cases unknown
  · rfl

/-- Definitions with overrides that fit them come to the same table, or to the
same error, as the rewritten definitions. -/
theorem build_overridden (fits : overrides.Fits defs) (units : UnitSystem) :
    build (defs.map (ParamDef.overridden overrides)) .empty units = build defs overrides units := by
  have folded : (defs.map (ParamDef.overridden overrides)).foldlM (define .empty) (.empty units)
      = defs.foldlM (define overrides) (.empty units) := by
    rw [List.foldlM_map]
    exact congrArg (fun f => defs.foldlM f (.empty units))
      (funext fun table => funext fun d => define_overridden fits.finite)
  cases h : defs.foldlM (define overrides) (.empty units) with
  | error e =>
    unfold build
    rw [folded, h]
    rfl
  | ok table =>
    -- all overrides are bound, so that none is reported on either side
    have known : ∀ id ∈ overrides.keys, table.values.contains id = true := by
      intro id key
      obtain ⟨d, hd, rfl⟩ := List.mem_map.1 (fits.declared id key)
      obtain ⟨_, x, -, bound⟩ := exists_find?_of_foldlM h hd
      rw [SortedMap.contains, bound]
      rfl
    rw [build_of_foldlM h known, build_of_foldlM (folded.trans h)]
    exact fun id key => absurd key List.not_mem_nil

end ParamTable
end PartPlan
