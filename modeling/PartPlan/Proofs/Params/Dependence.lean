/-
What the number of a scalar depends on. A scalar reads the parameters that stand
in it and the unit system, and a parameter is read off its override or, without
one, off its definition. So an override can only be felt by the scalars that
depend on it, directly or through definitions: if two evaluations of the same
definitions have the same overrides for all that a scalar depends on, it is the
same number in both (`ParamTable.alike_of_build`, `ParamTable.Alike.eval_eq`).

The tables of the two evaluations are compared definition by definition; what is
kept is that they agree on the parameters that are not affected (`Alike`).
-/
import PartPlan.Params
import PartPlan.Proofs.Checked

namespace PartPlan

namespace Scalar

/-- The parameters that stand in a scalar. -/
def params : Scalar → List String
  | value _ => []
  | literal _ _ => []
  | param id => [id]
  | binary _ left right => left.params ++ right.params
  | neg operand => operand.params

/-- A scalar depends on the parameters that stand in it, and on what their
definitions depend on. -/
inductive DependsOn (defs : List ParamDef) : Scalar → String → Prop where
  | mention {s : Scalar} {id : String} (stands : id ∈ s.params) : DependsOn defs s id
  | through {s : Scalar} {d : ParamDef} {id : String} (defined : d ∈ defs)
    (stands : d.id ∈ s.params) (rest : DependsOn defs d.value id) : DependsOn defs s id

/-- All that a scalar depends on has the same override, or none, on both sides.
Two zeros of different sign are not the same. -/
def Unaffected (defs : List ParamDef) (overrides overrides' : Overrides) (s : Scalar) : Prop :=
  ∀ id, s.DependsOn defs id → overrides.find? id = overrides'.find? id

variable {defs : List ParamDef} {overrides overrides' : Overrides} {s : Scalar} {id : String}

/-- A scalar depends on all that a parameter in it depends on. -/
theorem DependsOn.of_param (stands : id ∈ s.params) {x : String}
    (h : (param id).DependsOn defs x) : s.DependsOn defs x := by
  cases h with
  | mention here =>
    obtain rfl := List.mem_singleton.1 here
    exact .mention stands
  | @through _ d _ defined here rest =>
    have same : d.id = id := List.mem_singleton.1 here
    exact .through defined (same ▸ stands) rest

/-- What a scalar depends on is among any ids that hold the parameters in it and
in the definitions of one another. -/
theorem DependsOn.mem_of_closed {ids : List String} (h : s.DependsOn defs id)
    (closed : ∀ d ∈ defs, d.id ∈ ids → d.value.params ⊆ ids) (stand : s.params ⊆ ids) :
    id ∈ ids := by
  induction h with
  | mention stands => exact stand stands
  | through defined stands _ ih => exact ih (closed _ defined (stand stands))

theorem Unaffected.param (h : s.Unaffected defs overrides overrides') (stands : id ∈ s.params) :
    (param id).Unaffected defs overrides overrides' :=
  fun x depends => h x (.of_param stands depends)

/-- An unaffected parameter has the same override, or none. -/
theorem Unaffected.find?_eq (h : (Scalar.param id).Unaffected defs overrides overrides') :
    overrides.find? id = overrides'.find? id := h id (.mention List.mem_cons_self)

/-- And its definition is unaffected. -/
theorem Unaffected.definition {d : ParamDef} (defined : d ∈ defs)
    (h : (Scalar.param d.id).Unaffected defs overrides overrides') :
    d.value.Unaffected defs overrides overrides' :=
  fun x depends => h x (.through defined List.mem_cons_self depends)

/-- A scalar is the same number for tables that agree on the parameters in
it. -/
theorem eval_congr {table table' : ParamTable} (units : table.units = table'.units)
    (agree : ∀ id ∈ s.params, table.values.find? id = table'.values.find? id)
    (expected : Dimension) : s.eval table expected = s.eval table' expected := by
  induction s with
  | value x => rfl
  | literal x unit => rw [eval, eval, units]
  | param id => rw [eval, eval, evalParam, evalParam, agree id List.mem_cons_self]
  | binary op left right ihl ihr =>
    rw [eval, eval, ihl fun id h => agree id (List.mem_append_left _ h),
      ihr fun id h => agree id (List.mem_append_right _ h)]
  | neg operand ih => rw [eval, eval, ih agree]

end Scalar

-- ================================================================= tables

namespace ParamTable

/-- Two tables have the same units, and the same of every unaffected
parameter. -/
structure Alike (defs : List ParamDef) (overrides overrides' : Overrides)
    (table table' : ParamTable) : Prop where
  units : table.units = table'.units
  values : ∀ id, (Scalar.param id).Unaffected defs overrides overrides' →
    table.values.find? id = table'.values.find? id

variable {defs : List ParamDef} {overrides overrides' : Overrides}
  {table table' next next' : ParamTable}

theorem Alike.eval_eq (alike : Alike defs overrides overrides' table table') {s : Scalar}
    (unaffected : s.Unaffected defs overrides overrides') (expected : Dimension) :
    s.eval table expected = s.eval table' expected :=
  Scalar.eval_congr alike.units (fun id stands => alike.values id (unaffected.param stands)) expected

/-- An unaffected definition comes to the same number. -/
theorem Alike.resolve_eq (alike : Alike defs overrides overrides' table table') {d : ParamDef}
    (defined : d ∈ defs) (unaffected : (Scalar.param d.id).Unaffected defs overrides overrides') :
    d.resolve overrides table = d.resolve overrides' table' := by
  have value := alike.eval_eq (unaffected.definition defined) d.dimension
  unfold ParamDef.resolve evaluate
  rw [unaffected.find?_eq, value]

/-- A definition that is accepted is resolved and written into the table. -/
theorem exists_of_define {d : ParamDef} (h : define overrides table d = .ok next) :
    ∃ x, d.resolve overrides table = .ok x
      ∧ next = { table with values := table.values.insert d.id ⟨d.dimension, x⟩ } := by
  have checks : (if !Text.isParamName d.id then .error (.paramName d.id)
      else if table.values.contains d.id then .error (.paramDuplicate d.id)
      else d.resolve overrides table >>= fun x =>
        .ok { table with values := table.values.insert d.id ⟨d.dimension, x⟩ }) = .ok next := h
  split at checks
  · cases checks
  · split at checks
    · cases checks
    · obtain ⟨x, resolved, rest⟩ := Checked.bind_eq_ok.1 checks
      exact ⟨x, resolved, (Except.ok.inj rest).symm⟩

theorem foldlM_of_build {units : UnitSystem} (h : build defs overrides units = .ok table) :
    defs.foldlM (define overrides) (.empty units) = .ok table := by
  obtain ⟨last, folded, h⟩ := Checked.bind_eq_ok.1 h
  split at h
  · cases h
  · rw [folded, ← Except.ok.inj h]

theorem Alike.define (alike : Alike defs overrides overrides' table table') {d : ParamDef}
    (defined : d ∈ defs) (h : define overrides table d = .ok next)
    (h' : ParamTable.define overrides' table' d = .ok next') :
    Alike defs overrides overrides' next next' := by
  obtain ⟨x, resolved, rfl⟩ := exists_of_define h
  obtain ⟨x', resolved', rfl⟩ := exists_of_define h'
  refine ⟨alike.units, fun id unaffected => ?_⟩
  -- only what the definition writes is new, and if it is unaffected it is the same
  rw [SortedMap.find?_insert, SortedMap.find?_insert]
  split
  · next same =>
    subst same
    rw [alike.resolve_eq defined unaffected, resolved'] at resolved
    rw [Except.ok.inj resolved]
  · exact alike.values id unaffected

theorem Alike.foldlM (alike : Alike defs overrides overrides' table table') {rest : List ParamDef}
    (defined : rest ⊆ defs) (h : rest.foldlM (ParamTable.define overrides) table = .ok next)
    (h' : rest.foldlM (ParamTable.define overrides') table' = .ok next') :
    Alike defs overrides overrides' next next' := by
  induction rest generalizing table table' with
  | nil =>
    cases h
    cases h'
    exact alike
  | cons d rest ih =>
    obtain ⟨here, later⟩ := List.cons_subset.1 defined
    rw [List.foldlM_cons] at h h'
    obtain ⟨one, first, h⟩ := Checked.bind_eq_ok.1 h
    obtain ⟨one', first', h'⟩ := Checked.bind_eq_ok.1 h'
    exact ih (alike.define here first first') later h h'

/-- The tables of the same definitions with different overrides are alike. -/
theorem alike_of_build {units : UnitSystem} (h : build defs overrides units = .ok table)
    (h' : build defs overrides' units = .ok table') :
    Alike defs overrides overrides' table table' :=
  Alike.foldlM ⟨rfl, fun _ _ => rfl⟩ (List.Subset.refl defs) (foldlM_of_build h)
    (foldlM_of_build h')

end ParamTable
end PartPlan
