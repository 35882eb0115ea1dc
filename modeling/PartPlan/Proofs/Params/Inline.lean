/-
Parameters only abbreviate. A scalar can be written out: a parameter with an override as
the number given for it, and any other as its definition, written out in turn. That has
an end because a definition that is evaluated at all refers only to those before it, and
it can be done in one way only (`Inlines.unique`).

A scalar that is written out needs no table. It was checked, though, in another place:
a definition was evaluated for its own dimension, in the table of those before it. What
is kept from one definition to the next is that whatever stands for a parameter has its
number without a table (`Expands.closed`). The dimension does no harm, since a parameter
is used in its own dimension or is a count, and what is a count fits anywhere.
-/
import PartPlan.Proofs.Params.Acceptance

namespace PartPlan

-- ============================================================ substitution

namespace Scalar

/-- A scalar with other scalars in the places of its parameters. -/
def replace (σ : String → Scalar) : Scalar → Scalar
  | value x => .value x
  | literal x unit => .literal x unit
  | param id => σ id
  | binary op left right => .binary op (left.replace σ) (right.replace σ)
  | neg operand => .neg (operand.replace σ)

variable {σ τ : String → Scalar} {s : Scalar} {table table' : ParamTable}
  {expected own : Dimension} {v : Float}

theorem replace_congr (agree : ∀ id ∈ s.params, σ id = τ id) : s.replace σ = s.replace τ := by
  induction s with
  | value x => rfl
  | literal x unit => rfl
  | param id => exact agree id List.mem_cons_self
  | binary op left right ihl ihr =>
    rw [replace, replace, ihl fun id h => agree id (List.mem_append_left _ h),
      ihr fun id h => agree id (List.mem_append_right _ h)]
  | neg operand ih => rw [replace, replace, ih agree]

/-- What is put in the place of a parameter must come to what the parameter did. -/
theorem eval_replace (units : table.units = table'.units)
    (keeps : ∀ id ∈ s.params, ∀ x, (param id).eval table expected = .ok x →
      (σ id).eval table' expected = .ok x)
    (h : s.eval table expected = .ok v) : (s.replace σ).eval table' expected = .ok v := by
  induction s generalizing v with
  | value x => exact h
  | literal x unit =>
    rw [eval, units] at h
    exact h
  | param id => exact keeps id List.mem_cons_self v h
  | binary op left right ihl ihr =>
    obtain ⟨l, hl, h⟩ := Checked.bind_eq_ok.1 h
    obtain ⟨r, hr, h⟩ := Checked.bind_eq_ok.1 h
    refine Checked.bind_eq_ok.2 ⟨l, ihl (fun id hid => keeps id ?_) hl, ?_⟩
    · exact List.mem_append_left _ hid
    · refine Checked.bind_eq_ok.2 ⟨r, ihr (fun id hid => keeps id ?_) hr, h⟩
      exact List.mem_append_right _ hid
  | neg operand ih =>
    obtain ⟨x, hx, h⟩ := Checked.bind_eq_ok.1 h
    exact Checked.bind_eq_ok.2 ⟨x, ih keeps hx, h⟩

/-- What comes to the same in the same table can be put in the place of a parameter. -/
theorem eval_replace_eq
    (same : ∀ id ∈ s.params, (σ id).eval table expected = (param id).eval table expected) :
    (s.replace σ).eval table expected = s.eval table expected := by
  induction s with
  | value x => rfl
  | literal x unit => rfl
  | param id => exact same id List.mem_cons_self
  | binary op left right ihl ihr =>
    rw [replace, eval, eval, ihl fun id h => same id (List.mem_append_left _ h),
      ihr fun id h => same id (List.mem_append_right _ h)]
  | neg operand ih => rw [replace, eval, eval, ih same]

/-- A scalar that has a number has parameters that are defined. -/
theorem contains_of_eval (evaluated : s.eval table expected = .ok v) {id : String} (stands : id ∈ s.params) :
    table.values.contains id = true := by
  obtain ⟨p, bound, -⟩ := (Scalar.eval_eq_ok.1 evaluated).1.params id stands
  rw [SortedMap.contains, bound]
  rfl

/-- A scalar keeps its number wherever its dimension is usable. -/
theorem eval_of_usable (usable : own.usableAs expected = true) (h : s.eval table own = .ok v) :
    s.eval table expected = .ok v := by
  obtain ⟨fits, rfl⟩ := eval_eq_ok.1 h
  exact eval_eq_ok.2 ⟨fits.of_usable usable, rfl⟩

theorem eval_param {id : String} :
    (param id).eval table expected = .ok v
      ↔ ∃ d, table.values.find? id = some ⟨d, v⟩ ∧ d.usableAs expected = true := by
  rw [eval, evalParam]
  cases table.values.find? id with
  | none => simp
  | some p =>
    simp only
    split
    · next usable =>
      constructor
      · intro h
        cases h
        exact ⟨p.dimension, rfl, usable⟩
      · rintro ⟨d, h, -⟩
        cases h
        rfl
    · next unusable =>
      constructor
      · intro h
        cases h
      · rintro ⟨d, h, usable⟩
        cases h
        exact absurd usable unusable

end Scalar

-- ============================================================= writing out

/-- `f` writes parameters out. It goes into expressions, takes the override of a
parameter for it if there is one, and otherwise goes into its definition. -/
structure Inlines (defs : List ParamDef) (overrides : Overrides) (f : Scalar → Scalar) :
    Prop where
  value : ∀ x, f (.value x) = .value x
  literal : ∀ x unit, f (.literal x unit) = .literal x unit
  binary : ∀ op left right, f (.binary op left right) = .binary op (f left) (f right)
  neg : ∀ operand, f (.neg operand) = .neg (f operand)
  overridden : ∀ d ∈ defs, ∀ x, overrides.find? d.id = some x → f (.param d.id) = .value x
  defined : ∀ d ∈ defs, overrides.find? d.id = none → f (.param d.id) = f d.value
  free : ∀ id, id ∉ defs.map ParamDef.id → f (.param id) = .param id

/-- Definitions without an override refer only to those before them. -/
def RefersBack (overrides : Overrides) (defs : List ParamDef) : Prop :=
  ∀ earlier d later, defs = earlier ++ d :: later → overrides.find? d.id = none →
    d.value.params ⊆ earlier.map ParamDef.id

variable {defs seen : List ParamDef} {overrides : Overrides} {f g : Scalar → Scalar}
  {units : UnitSystem} {table next : ParamTable} {σ : String → Scalar} {d : ParamDef} {x : Float}

namespace Inlines

/-- To write a scalar out is to replace its parameters. -/
theorem eq_replace (h : Inlines defs overrides f) (s : Scalar) :
    f s = s.replace fun id => f (.param id) := by
  induction s with
  | value x => exact h.value x
  | literal x unit => exact h.literal x unit
  | param id => rfl
  | binary op left right ihl ihr => rw [h.binary, Scalar.replace, ← ihl, ← ihr]
  | neg operand ih => rw [h.neg, Scalar.replace, ← ih]

theorem congr (hf : Inlines defs overrides f) (hg : Inlines defs overrides g) {s : Scalar}
    (agree : ∀ id ∈ s.params, f (.param id) = g (.param id)) : f s = g s := by
  rw [hf.eq_replace, hg.eq_replace]
  exact Scalar.replace_congr agree

/-- The parameters of the first definitions are written out in one way only. -/
theorem param_unique (back : RefersBack overrides defs) (hf : Inlines defs overrides f)
    (hg : Inlines defs overrides g) {earlier later : List ParamDef} (split : defs = earlier ++ later)
    {id : String} (declared : id ∈ earlier.map ParamDef.id) : f (.param id) = g (.param id) := by
  induction earlier using List.reverseRecOn generalizing later id with
  | nil => cases declared
  | append_singleton earlier d ih =>
    rw [List.append_assoc] at split
    rw [List.map_append, List.mem_append] at declared
    rcases declared with before | here
    · exact ih split before
    · obtain rfl := List.mem_singleton.1 here
      have inside : d ∈ defs := split ▸ List.mem_append_right _ List.mem_cons_self
      cases given : overrides.find? d.id with
      | some x => rw [hf.overridden d inside x given, hg.overridden d inside x given]
      | none =>
        rw [hf.defined d inside given, hg.defined d inside given]
        exact hf.congr hg fun id stands => ih split (back earlier d later split given stands)

theorem unique (back : RefersBack overrides defs) (hf : Inlines defs overrides f)
    (hg : Inlines defs overrides g) : f = g := by
  refine funext fun s => hf.congr hg fun id _ => ?_
  by_cases declared : id ∈ defs.map ParamDef.id
  · exact hf.param_unique back hg (List.append_nil defs).symm declared
  · rw [hf.free id declared, hg.free id declared]

end Inlines

-- ============================================================= the expansion

/-- What stands for a parameter, after one more definition. -/
def ParamDef.bind (overrides : Overrides) (σ : String → Scalar) (d : ParamDef) :
    String → Scalar :=
  Function.update σ d.id ((overrides.find? d.id).elim (d.value.replace σ) Scalar.value)

/-- What stands for a parameter when all definitions are written out. -/
def ParamDef.expansion (overrides : Overrides) (defs : List ParamDef) : String → Scalar :=
  defs.foldl (bind overrides) Scalar.param

theorem ParamDef.bind_self : d.bind overrides σ d.id
    = (overrides.find? d.id).elim (d.value.replace σ) Scalar.value := Function.update_self ..

theorem ParamDef.bind_of_ne {id : String} (other : id ≠ d.id) : d.bind overrides σ id = σ id :=
  Function.update_of_ne other ..

section Define

variable (accepted : ParamTable.define overrides table d = .ok next) {s : Scalar}
  {expected : Dimension}
include accepted

theorem ParamTable.ne_of_define {id : String} (known : table.values.contains id = true) :
    id ≠ d.id := by
  rintro rfl
  rw [fresh_of_define accepted] at known
  cases known

/-- A scalar that has a number does not refer to what is defined next, so it keeps the
number and is written out as before. -/
theorem Scalar.eval_of_define (evaluated : s.eval table expected = .ok x) :
    s.eval next expected = .ok x := by
  obtain ⟨y, -, written⟩ := ParamTable.exists_of_define accepted
  rw [← evaluated]
  refine eval_congr (by rw [written]) (fun id stands => ?_) expected
  rw [written, SortedMap.find?_insert,
    if_neg (ParamTable.ne_of_define accepted (contains_of_eval evaluated stands))]

theorem Scalar.replace_bind (evaluated : s.eval table expected = .ok x) :
    s.replace (d.bind overrides σ) = s.replace σ :=
  replace_congr fun _ stands =>
    ParamDef.bind_of_ne (ParamTable.ne_of_define accepted (contains_of_eval evaluated stands))

end Define

/-- What stands for the parameters of a table that the definitions so far have come
to. -/
structure Expands (overrides : Overrides) (system : UnitSystem) (seen : List ParamDef)
    (table : ParamTable) (σ : String → Scalar) : Prop where
  lists : ParamTable.Lists overrides system seen table
  free : ∀ id, id ∉ seen.map ParamDef.id → σ id = .param id
  closed : ∀ id p, table.values.find? id = some p →
    (σ id).eval (.empty system) p.dimension = .ok p.value
  overridden : ∀ d ∈ seen, ∀ x, overrides.find? d.id = some x → σ d.id = .value x
  defined : ∀ d ∈ seen, overrides.find? d.id = none → σ d.id = d.value.replace σ
    ∧ ∃ x, table.values.find? d.id = some ⟨d.dimension, x⟩
      ∧ d.value.eval table d.dimension = .ok x

namespace Expands

/-- Where a parameter has a number, so has what stands for it. -/
theorem eval_param (h : Expands overrides units seen table σ) {expected : Dimension} {id : String}
    (read : (Scalar.param id).eval table expected = .ok x) :
    (σ id).eval (.empty units) expected = .ok x := by
  obtain ⟨own, bound, usable⟩ := Scalar.eval_param.1 read
  exact Scalar.eval_of_usable usable (h.closed id _ bound)

/-- What a scalar comes to in the table it comes to without, when it is written out. -/
theorem eval_replace (h : Expands overrides units seen table σ) {expected : Dimension} {s : Scalar}
    (evaluated : s.eval table expected = .ok x) :
    (s.replace σ).eval (.empty units) expected = .ok x :=
  Scalar.eval_replace h.lists.units (fun _ _ _ read => h.eval_param read) evaluated

theorem empty : Expands overrides units [] (.empty units) Scalar.param where
  lists := ParamTable.lists_tabulate overrides units []
  free _ _ := rfl
  closed _ _ bound := nomatch bound
  overridden _ hd := absurd hd List.not_mem_nil
  defined _ hd := absurd hd List.not_mem_nil

/-- What stands for the parameters goes along with each definition. -/
theorem define (h : Expands overrides units seen table σ)
    (accepted : ParamTable.define overrides table d = .ok next) :
    Expands overrides units (seen ++ [d]) next (d.bind overrides σ) := by
  obtain ⟨x, resolved, written⟩ := ParamTable.exists_of_define accepted
  have value : ∀ id, next.values.find? id
      = if id = d.id then some ⟨d.dimension, x⟩ else table.values.find? id := by
    intro id
    rw [written, SortedMap.find?_insert]
  have other : ∀ e ∈ seen, e.id ≠ d.id := fun e he =>
    ParamTable.ne_of_define accepted ((h.lists.keys e.id).2 (List.mem_map_of_mem he))
  constructor
  case lists =>
    rw [((ParamTable.accepts_define overrides table d next).1 accepted).2]
    exact h.lists.write d
  case free =>
    intro id unseen
    rw [List.map_append, List.mem_append, not_or] at unseen
    have there : id ≠ d.id := fun here => unseen.2 (here ▸ List.mem_cons_self)
    rw [ParamDef.bind_of_ne there, h.free id unseen.1]
  case closed =>
    intro id p bound
    rw [value] at bound
    split at bound
    · next here =>
      cases bound
      rw [here, ParamDef.bind_self]
      cases given : overrides.find? d.id with
      | some y =>
        rw [ParamDef.eq_of_resolve given resolved]
        rfl
      | none => exact h.eval_replace (ParamDef.eval_of_resolve given resolved)
    · next there =>
      rw [ParamDef.bind_of_ne there]
      exact h.closed id p bound
  case overridden =>
    intro e he y given
    rcases List.mem_append.1 he with before | here
    · rw [ParamDef.bind_of_ne (other e before), h.overridden e before y given]
    · obtain rfl := List.mem_singleton.1 here
      rw [ParamDef.bind_self, given]
      rfl
  case defined =>
    intro e he free
    rcases List.mem_append.1 he with before | here
    · obtain ⟨expansion, y, bound, evaluated⟩ := h.defined e before free
      refine ⟨?_, y, ?_, Scalar.eval_of_define accepted evaluated⟩
      · rw [ParamDef.bind_of_ne (other e before), expansion,
          Scalar.replace_bind accepted evaluated]
      · rw [value, if_neg (other e before), bound]
    · obtain rfl := List.mem_singleton.1 here
      have evaluated := ParamDef.eval_of_resolve free resolved
      refine ⟨?_, x, ?_, Scalar.eval_of_define accepted evaluated⟩
      · rw [ParamDef.bind_self, free, Scalar.replace_bind accepted evaluated]
        rfl
      · rw [value, if_pos rfl]

theorem foldlM (h : Expands overrides units seen table σ)
    (accepted : defs.foldlM (ParamTable.define overrides) table = .ok next) :
    Expands overrides units (seen ++ defs) next (defs.foldl (ParamDef.bind overrides) σ) := by
  induction defs generalizing seen table σ with
  | nil =>
    cases accepted
    rw [List.append_nil]
    exact h
  | cons d defs ih =>
    rw [List.foldlM_cons] at accepted
    obtain ⟨one, first, accepted⟩ := Checked.bind_eq_ok.1 accepted
    have rest := ih (h.define first) accepted
    rw [List.append_assoc] at rest
    exact rest

/-- The parameters of a table are expanded by its definitions. -/
theorem of_foldlM (accepted : defs.foldlM (ParamTable.define overrides) (.empty units) = .ok table) :
    Expands overrides units defs table (ParamDef.expansion overrides defs) :=
  empty.foldlM accepted

/-- Replacing each parameter by what stands for it writes it out. -/
theorem inlines (h : Expands overrides units defs table σ) :
    Inlines defs overrides (Scalar.replace σ) where
  value _ := rfl
  literal _ _ := rfl
  binary _ _ _ := rfl
  neg _ := rfl
  overridden := h.overridden
  defined d hd free := (h.defined d hd free).1
  free := h.free

end Expands

/-- Definitions that come to a table refer back. -/
theorem refersBack_of_foldlM
    (accepted : defs.foldlM (ParamTable.define overrides) (.empty units) = .ok table) :
    RefersBack overrides defs := by
  rintro earlier d later rfl free id stands
  rw [List.foldlM_append] at accepted
  obtain ⟨before, first, accepted⟩ := Checked.bind_eq_ok.1 accepted
  rw [List.foldlM_cons] at accepted
  obtain ⟨one, here, -⟩ := Checked.bind_eq_ok.1 accepted
  obtain ⟨x, resolved, -⟩ := ParamTable.exists_of_define here
  have evaluated := ParamDef.eval_of_resolve free resolved
  exact ((Expands.of_foldlM first).lists.keys id).1 (Scalar.contains_of_eval evaluated stands)

/-- A definition that is a count comes to the same number wherever its parameter is
used. -/
theorem Expands.eval_count (h : Expands overrides units defs table σ) (hd : d ∈ defs)
    (counts : d.dimension = .count) (free : overrides.find? d.id = none) (expected : Dimension) :
    ∃ x, (Scalar.param d.id).eval table expected = .ok x ∧ d.value.eval table expected = .ok x := by
  obtain ⟨-, x, bound, evaluated⟩ := h.defined d hd free
  have usable := Dimension.usableAs_iff.2 (.inr counts : d.dimension = expected ∨ _)
  exact ⟨x, Scalar.eval_param.2 ⟨_, bound, usable⟩, Scalar.eval_of_usable usable evaluated⟩

/-- The parameters of a table only abbreviate. Definitions refer to earlier ones, so
there is one way to write a scalar out, and whatever a scalar comes to in the table, it
comes to without one when it is written out. A count that is defined may be replaced by
its definition wherever it stands. -/
theorem ParamTable.eval_written_out (accepted : build defs overrides units = .ok table) :
    RefersBack overrides defs
    ∧ (∃! inline : Scalar → Scalar, Inlines defs overrides inline)
    ∧ (∀ inline : Scalar → Scalar, Inlines defs overrides inline →
      ∀ (s : Scalar) (expected : Dimension) v, s.eval table expected = .ok v →
        (inline s).eval (.empty units) expected = .ok v)
    ∧ ∀ d ∈ defs, d.dimension = .count → overrides.find? d.id = none →
      ∀ (s : Scalar) (expected : Dimension), (s.replace fun id => if id = d.id then d.value else .param id).eval table expected
          = s.eval table expected := by
  have folded := foldlM_of_build accepted
  have expands := Expands.of_foldlM folded
  have back := refersBack_of_foldlM folded
  refine ⟨back, ⟨_, expands.inlines, fun f hf => hf.unique back expands.inlines⟩, ?_, ?_⟩
  · intro inline h s expected v evaluated
    rw [h.unique back expands.inlines]
    exact expands.eval_replace evaluated
  · intro d hd counts free s expected
    obtain ⟨x, read, evaluated⟩ := expands.eval_count hd counts free expected
    refine Scalar.eval_replace_eq fun id _ => ?_
    split
    · next same => rw [same, read, evaluated]
    · rfl

/-- Holes in a row, in a part that is measured in centimetres. -/
def holesInRow : List ParamDef :=
  [⟨"holes", .count, .binary .add (.value 2) (.literal 1 none)⟩,
    ⟨"gap", .length, .literal 5 (some "mm")⟩,
    ⟨"row", .length, .binary .mul (.param "holes") (.param "gap")⟩]

/-- They are given another gap. -/
def widerGap : Overrides := .ofList [("gap", 2)]

/-- What they come to. -/
def holesInRowTable : ParamTable :=
  ⟨.cm, .ofList [("holes", ⟨.count, 3⟩), ("gap", ⟨.length, 2⟩), ("row", ⟨.length, 6⟩)]⟩

theorem holesInRow_written_out :
    ParamTable.build holesInRow widerGap .cm = .ok holesInRowTable
      ∧ ∃ inline, Inlines holesInRow widerGap inline
        ∧ inline (.neg (.param "row"))
          = .neg (.binary .mul (.binary .add (.value 2) (.literal 1 none)) (.value 2))
        ∧ (inline (.neg (.param "row"))).eval (.empty .cm) .length = .ok (-6) := by
  have built : ParamTable.build holesInRow widerGap .cm = .ok holesInRowTable := by decide +kernel
  obtain ⟨-, ⟨inline, h, -⟩, transparent, -⟩ := ParamTable.eval_written_out built
  refine ⟨built, inline, h, ?_, transparent inline h _ _ _ (by decide +kernel)⟩
  have holes : inline (.param "holes") = .binary .add (.value 2) (.literal 1 none) := by
    have defined := h.defined ⟨"holes", .count, .binary .add (.value 2) (.literal 1 none)⟩
      (by decide +kernel) (by decide +kernel)
    rw [defined, h.binary, h.value, h.literal]
  have gap : inline (.param "gap") = .value 2 :=
    h.overridden ⟨"gap", .length, .literal 5 (some "mm")⟩ (by decide +kernel) 2 (by decide +kernel)
  have row := h.defined ⟨"row", .length, .binary .mul (.param "holes") (.param "gap")⟩
    (by decide +kernel) (by decide +kernel)
  rw [h.neg, row, h.binary, holes, gap]

end PartPlan
