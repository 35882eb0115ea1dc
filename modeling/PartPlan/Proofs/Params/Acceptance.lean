/-
Which definitions come to a table. A definition is accepted by what stands before it and
by its override: its name is new, the override is finite if there is one, and otherwise
its scalar fits and comes to a finite number (`ParamTable.accepts_define`). The table is
the same for all of that, whether it is accepted or not, so it can be written down
without evaluating anything (`ParamTable.tabulate`), and a list of definitions is
accepted if each is in the table of those before it.

That table still is what evaluation goes through. What is said of it in the end is said
of the definitions (`ParamDef.Sound`): which of those before a scalar may refer to, and
what numbers they stand for (`ParamDef.numbers`). The two agree as long as no parameter
is defined twice (`ParamTable.Lists`).
-/
import PartPlan.Proofs.Params.Overridden
import PartPlan.Proofs.Scalar.Leaves
import Mathlib.Data.List.Induction
import Mathlib.Data.List.Nodup
import Mathlib.Logic.Function.Basic

namespace PartPlan

-- =================================================================== names

/-- A letter or an underscore, and then letters, digits and underscores. -/
def Text.IsName (s : String) : Prop :=
  ∃ first rest, s.toList = first :: rest
    ∧ ('a' ≤ first ∧ first ≤ 'z' ∨ 'A' ≤ first ∧ first ≤ 'Z' ∨ first = '_')
    ∧ ∀ c ∈ rest, 'a' ≤ c ∧ c ≤ 'z' ∨ 'A' ≤ c ∧ c ≤ 'Z' ∨ '0' ≤ c ∧ c ≤ '9' ∨ c = '_'

theorem Text.isParamName_iff {s : String} : isParamName s = true ↔ IsName s := by
  unfold isParamName IsName
  cases s.toList with
  | nil => simp
  | cons first rest => simp [isLetter, isDigit, or_assoc]

-- ============================================================= definitions

variable {overrides : Overrides} {units : UnitSystem} {defs earlier : List ParamDef}
  {table : ParamTable} {d : ParamDef}

namespace ParamDef

/-- The number of a definition, given those of the parameters in it. -/
def number (overrides : Overrides) (units : UnitSystem) (numbers : String → Float) (d : ParamDef) :
    Float :=
  (overrides.find? d.id).getD (d.value.compute units numbers)

/-- The numbers of the parameters that are defined. -/
def numbers (overrides : Overrides) (units : UnitSystem) (defs : List ParamDef) : String → Float :=
  defs.foldl (fun known d => Function.update known d.id (d.number overrides units known)) fun _ => 0

/-- A definition without an override is no angle that is given as a bare number; it
refers to definitions before it of its own dimension and to counts; the units in it are
those of its dimension; and it comes to a finite number. -/
structure Sound (overrides : Overrides) (system : UnitSystem) (earlier : List ParamDef)
    (d : ParamDef) : Prop where
  measured : d.dimension = .angle → ∀ x, d.value ≠ .value x ∧ d.value ≠ .literal x none
  scope : ∀ id ∈ d.value.params, ∃ e ∈ earlier, e.id = id
    ∧ (e.dimension = d.dimension ∨ e.dimension = .count)
  units : ∀ unit ∈ d.value.units, d.dimension.HasUnit unit
  finite : (d.value.compute system (numbers overrides system earlier)).isFinite = true

/-- Definitions with distinct names, overrides that fit them, and every definition that
is not overridden is sound. -/
structure WellDefined (overrides : Overrides) (units : UnitSystem) (defs : List ParamDef) :
    Prop where
  named : ∀ d ∈ defs, Text.IsName d.id
  distinct : (defs.map ParamDef.id).Nodup
  given : overrides.Fits defs
  sound : ∀ earlier d later, defs = earlier ++ d :: later → overrides.find? d.id = none →
    d.Sound overrides units earlier

/-- What a definition has to be in the table of those before it. -/
def Fits (overrides : Overrides) (table : ParamTable) (d : ParamDef) : Prop :=
  match overrides.find? d.id with
  | some x => x.isFinite = true
  | none => ¬ (d.dimension = .angle ∧ d.value.isUnitless = true)
    ∧ d.value.Fits table d.dimension
    ∧ (d.value.compute table.units table.number).isFinite = true

theorem accepts_resolve (overrides : Overrides) (table : ParamTable) (d : ParamDef) :
    Checked.Accepts (d.resolve overrides table) (d.Fits overrides table)
      (d.number overrides table.units table.number) := by
  rw [resolve, Fits, number]
  cases overrides.find? d.id with
  | some x => exact Checked.Accepts.test _ x
  | none =>
    refine Checked.Accepts.check ((d.value.accepts_eval table d.dimension).bind fun _ => ?_)
    exact Checked.Accepts.test _ _

/-- A definition without an override is evaluated in the table of those before it. -/
theorem eval_of_resolve {x : Float} (free : overrides.find? d.id = none)
    (h : d.resolve overrides table = .ok x) : d.value.eval table d.dimension = .ok x := by
  obtain ⟨fits, rfl⟩ := (d.accepts_resolve overrides table x).1 h
  rw [Fits, free] at fits
  rw [number, free]
  exact Scalar.eval_eq_ok.2 ⟨fits.2.1, rfl⟩

theorem eq_of_resolve {x y : Float} (given : overrides.find? d.id = some y)
    (h : d.resolve overrides table = .ok x) : x = y := by
  obtain ⟨-, rfl⟩ := (d.accepts_resolve overrides table x).1 h
  rw [number, given]
  rfl

/-- Whatever a definition comes to is finite. -/
theorem isFinite_of_resolve {x : Float} (h : d.resolve overrides table = .ok x) :
    x.isFinite = true := by
  obtain ⟨fits, rfl⟩ := (d.accepts_resolve overrides table x).1 h
  rw [Fits] at fits
  rw [number]
  cases given : overrides.find? d.id with
  | some y =>
    rw [given] at fits
    exact fits
  | none =>
    rw [given] at fits
    exact fits.2.2

end ParamDef

-- ================================================================= tables

namespace ParamTable

/-- A table with one more definition, which need not be accepted. -/
def write (overrides : Overrides) (table : ParamTable) (d : ParamDef) : ParamTable :=
  { table with
    values := table.values.insert d.id
      ⟨d.dimension, d.number overrides table.units table.number⟩ }

/-- The table of a list of definitions, which need not be accepted. -/
def tabulate (overrides : Overrides) (units : UnitSystem) (defs : List ParamDef) : ParamTable :=
  defs.foldl (write overrides) (.empty units)

theorem accepts_define (overrides : Overrides) (table : ParamTable) (d : ParamDef) :
    Checked.Accepts (define overrides table d)
      (Text.IsName d.id ∧ table.values.contains d.id = false ∧ d.Fits overrides table)
      (write overrides table d) := by
  have checks : define overrides table d
      = if Text.isParamName d.id = false then .error (.paramName d.id)
        else if table.values.contains d.id = true then .error (.paramDuplicate d.id)
        else d.resolve overrides table >>= fun x =>
          .ok { table with values := table.values.insert d.id ⟨d.dimension, x⟩ } := by
    unfold define
    cases Text.isParamName d.id <;> cases table.values.contains d.id <;> rfl
  rw [checks]
  refine (((d.accepts_resolve overrides table).bind_ok _).check.check).congr ?_
  rw [Bool.not_eq_false, Bool.not_eq_true, Text.isParamName_iff]

theorem accepts_build (defs : List ParamDef) (overrides : Overrides) (units : UnitSystem) :
    Checked.Accepts (build defs overrides units)
      ((∀ earlier d later, defs = earlier ++ d :: later →
          Text.IsName d.id ∧ (tabulate overrides units earlier).values.contains d.id = false
            ∧ d.Fits overrides (tabulate overrides units earlier))
        ∧ ∀ id ∈ overrides.keys, (tabulate overrides units defs).values.contains id = true)
      (tabulate overrides units defs) := by
  have folded := Checked.Accepts.foldlM (accepts_define overrides) defs (.empty units)
  refine folded.bind fun _ => ?_
  rw [← tabulate]
  split
  · next id found =>
    refine (Checked.Accepts.error _ _).congr (iff_of_false not_false fun known => ?_)
    have unknown := List.find?_some found
    rw [known id (List.mem_of_find?_eq_some found)] at unknown
    cases unknown
  · next none =>
    refine (Checked.Accepts.ok _).congr (iff_of_true trivial fun id key => ?_)
    simpa using List.find?_eq_none.1 none id key

/-- A table lists definitions if it has them under their names, with their
dimensions and with the numbers that they stand for. A dimension is only certain if no
parameter is defined twice. -/
structure Lists (overrides : Overrides) (system : UnitSystem) (defs : List ParamDef)
    (table : ParamTable) : Prop where
  units : table.units = system
  keys : ∀ id, table.values.contains id = true ↔ id ∈ defs.map ParamDef.id
  numbers : table.number = ParamDef.numbers overrides system defs
  dimensions : (defs.map ParamDef.id).Nodup → ∀ d ∈ defs, ∃ x,
    table.values.find? d.id = some ⟨d.dimension, x⟩

theorem Lists.write (h : Lists overrides units defs table) (d : ParamDef) :
    Lists overrides units (defs ++ [d]) (table.write overrides d) := by
  have value : ∀ id, (table.write overrides d).values.find? id
      = if id = d.id then some ⟨d.dimension, d.number overrides table.units table.number⟩
        else table.values.find? id := fun id => SortedMap.find?_insert ..
  constructor
  case units => exact h.units
  case keys =>
    intro id
    rw [SortedMap.contains, value, List.map_append, List.mem_append, ← h.keys, SortedMap.contains,
      List.map_singleton, List.mem_singleton]
    split
    · next here => simp [here]
    · next other => simp [other]
  case numbers =>
    refine funext fun id => ?_
    rw [number, value, ParamDef.numbers, List.foldl_append]
    show _ = Function.update (ParamDef.numbers overrides units defs) d.id
      (d.number overrides units (ParamDef.numbers overrides units defs)) id
    rw [← h.numbers, ← h.units]
    split
    · next here =>
      rw [here, Function.update_self]
      rfl
    · next other => rw [Function.update_of_ne other, number]
  case dimensions =>
    intro distinct e he
    rw [List.map_append, List.nodup_append] at distinct
    obtain ⟨before, -, apart⟩ := distinct
    rw [value]
    rcases List.mem_append.1 he with earlier | here
    · rw [if_neg (apart _ (List.mem_map_of_mem earlier) _ List.mem_cons_self)]
      exact h.dimensions before e earlier
    · rw [List.mem_singleton.1 here, if_pos rfl]
      exact ⟨_, rfl⟩

theorem lists_tabulate (overrides : Overrides) (units : UnitSystem) (defs : List ParamDef) :
    Lists overrides units defs (tabulate overrides units defs) := by
  induction defs using List.reverseRecOn with
  | nil =>
    refine ⟨rfl, fun id => ?_, rfl, fun _ d hd => absurd hd List.not_mem_nil⟩
    simp [tabulate, ParamTable.empty, SortedMap.contains]
  | append_singleton defs d ih =>
    rw [tabulate, List.foldl_append]
    exact ih.write d

end ParamTable

-- ============================================================== acceptance

namespace ParamDef

/-- Without an override, a definition has to be sound after those in the table. -/
theorem fits_tabulate (distinct : (earlier.map ParamDef.id).Nodup)
    (free : overrides.find? d.id = none) :
    d.Fits overrides (ParamTable.tabulate overrides units earlier)
      ↔ d.Sound overrides units earlier := by
  have lists := ParamTable.lists_tabulate overrides units earlier
  have bare : ¬ (d.dimension = .angle ∧ d.value.isUnitless = true)
      ↔ (d.dimension = .angle → ∀ x, d.value ≠ .value x ∧ d.value ≠ .literal x none) := by
    rw [not_and]
    refine imp_congr_right fun _ => ?_
    cases d.value with
    | value x => simp [Scalar.isUnitless]
    | literal x unit => cases unit <;> simp [Scalar.isUnitless]
    | param id => simp [Scalar.isUnitless]
    | binary op left right => simp [Scalar.isUnitless]
    | neg operand => simp [Scalar.isUnitless]
  have usable : ∀ id, (∃ p, (ParamTable.tabulate overrides units earlier).values.find? id = some p
        ∧ p.dimension.usableAs d.dimension = true)
      ↔ ∃ e ∈ earlier, e.id = id ∧ (e.dimension = d.dimension ∨ e.dimension = .count) := by
    intro id
    constructor
    · rintro ⟨p, bound, usable⟩
      have declared : id ∈ earlier.map ParamDef.id := by
        rw [← lists.keys, SortedMap.contains, bound]
        rfl
      obtain ⟨e, he, rfl⟩ := List.mem_map.1 declared
      obtain ⟨x, written⟩ := lists.dimensions distinct e he
      rw [bound] at written
      cases written
      exact ⟨e, he, rfl, Dimension.usableAs_iff.1 usable⟩
    · rintro ⟨e, he, rfl, usable⟩
      obtain ⟨x, written⟩ := lists.dimensions distinct e he
      exact ⟨_, written, Dimension.usableAs_iff.2 usable⟩
  rw [Fits, free]
  show (_ ∧ _ ∧ _) ↔ _
  rw [bare, lists.units, lists.numbers]
  constructor
  · rintro ⟨measured, ⟨scope, allowed⟩, finite⟩
    exact ⟨measured, fun id stands => (usable id).1 (scope id stands), allowed, finite⟩
  · rintro ⟨measured, scope, allowed, finite⟩
    exact ⟨measured, ⟨fun id stands => (usable id).2 (scope id stands), allowed⟩, finite⟩

theorem fits_of_override {x : Float} (given : overrides.find? d.id = some x) :
    d.Fits overrides table ↔ x.isFinite = true := by
  rw [Fits, given]

end ParamDef

/-- Names are distinct if each is new. -/
theorem nodup_iff_new {α β : Type} {f : α → β} {l : List α} :
    (l.map f).Nodup ↔ ∀ before a after, l = before ++ a :: after → f a ∉ before.map f := by
  constructor
  · rintro distinct before a after rfl member
    rw [List.map_append, List.nodup_append] at distinct
    exact distinct.2.2 _ member _ List.mem_cons_self rfl
  · intro new
    induction l using List.reverseRecOn with
    | nil => exact List.nodup_nil
    | append_singleton l a ih =>
      rw [List.map_append, List.map_singleton, List.nodup_append]
      refine ⟨ih fun before b after split => new before b (after ++ [a]) ?_, List.nodup_singleton _,
        fun b hb c hc same => ?_⟩
      · rw [split, List.append_assoc, List.cons_append]
      · rw [List.mem_singleton.1 hc] at same
        exact new l a [] rfl (same ▸ hb)

namespace ParamTable

/-- Definitions are accepted exactly if they are well defined, and the table is the list
of them. -/
theorem accepts_wellDefined (defs : List ParamDef) (overrides : Overrides) (units : UnitSystem) :
    Checked.Accepts (build defs overrides units) (ParamDef.WellDefined overrides units defs)
      (tabulate overrides units defs) := by
  refine (accepts_build defs overrides units).congr ⟨?_, fun well => ⟨?_, ?_⟩⟩
  · rintro ⟨each, overridden⟩
    have distinct : (defs.map ParamDef.id).Nodup := by
      refine nodup_iff_new.2 fun earlier d later split member => ?_
      have fresh := (each earlier d later split).2.1
      rw [((lists_tabulate overrides units earlier).keys d.id).2 member] at fresh
      cases fresh
    have declared : ∀ id ∈ overrides.keys, id ∈ defs.map ParamDef.id :=
      fun id key => ((lists_tabulate overrides units defs).keys id).1 (overridden id key)
    refine ⟨fun d hd => ?_, distinct, ⟨fun id x given => ?_, declared⟩, ?_⟩
    · obtain ⟨earlier, later, split⟩ := List.append_of_mem hd
      exact (each earlier d later split).1
    · have key : id ∈ overrides.keys := by
        rw [SortedMap.mem_keys, SortedMap.contains, given]
        rfl
      obtain ⟨d, hd, rfl⟩ := List.mem_map.1 (declared id key)
      obtain ⟨earlier, later, split⟩ := List.append_of_mem hd
      exact (ParamDef.fits_of_override given).1 (each earlier d later split).2.2
    · rintro earlier d later rfl free
      rw [List.map_append, List.nodup_append] at distinct
      exact (ParamDef.fits_tabulate distinct.1 free).1 (each earlier d later rfl).2.2
  · rintro earlier d later rfl
    have distinct := well.distinct
    refine ⟨well.named d (List.mem_append_right _ List.mem_cons_self), ?_, ?_⟩
    · rw [← Bool.not_eq_true, (lists_tabulate overrides units earlier).keys]
      exact nodup_iff_new.1 distinct earlier d later rfl
    · cases given : overrides.find? d.id with
      | some x => exact (ParamDef.fits_of_override given).2 (well.given.finite d.id x given)
      | none =>
        rw [List.map_append, List.nodup_append] at distinct
        exact (ParamDef.fits_tabulate distinct.1 given).2 (well.sound earlier d later rfl given)
  · exact fun id key =>
      ((lists_tabulate overrides units defs).keys id).2 (well.given.declared id key)

/-- The parameters of a part have its units. -/
theorem units_of_build (built : build defs overrides units = .ok table) : table.units = units := by
  obtain ⟨-, rfl⟩ := (accepts_wellDefined defs overrides units table).1 built
  exact (lists_tabulate overrides units defs).units

/-- Definitions come to a table exactly if they are well defined. It has their names and
no others, each with its dimension and with a finite number, which is the override if
there is one, and what is overridden is never looked at. -/
theorem build_acceptance (defs : List ParamDef) (overrides : Overrides) (units : UnitSystem) :
    ((∃ table, build defs overrides units = .ok table)
      ↔ ParamDef.WellDefined overrides units defs)
    ∧ (∀ table, build defs overrides units = .ok table →
      table.units = units
      ∧ (∀ id, id ∈ table.values.keys ↔ id ∈ defs.map ParamDef.id)
      ∧ ∀ d ∈ defs, ∃ x, table.values.find? d.id = some ⟨d.dimension, x⟩ ∧ x.isFinite = true
        ∧ x = ParamDef.numbers overrides units defs d.id
        ∧ ∀ y, overrides.find? d.id = some y → x = y)
    ∧ ∀ defs', List.Forall₂ (ParamDef.Interchangeable overrides) defs defs' →
      build defs' overrides units = build defs overrides units := by
  have accepts := accepts_wellDefined defs overrides units
  refine ⟨⟨?_, fun well => ⟨_, (accepts _).2 ⟨well, rfl⟩⟩⟩, fun table built => ?_,
    fun defs' => build_interchangeable⟩
  · rintro ⟨table, built⟩
    exact ((accepts table).1 built).1
  · have lists := lists_tabulate overrides units defs
    rw [← ((accepts table).1 built).2] at lists
    refine ⟨lists.units, fun id => SortedMap.mem_keys.trans (lists.keys id), fun d hd => ?_⟩
    obtain ⟨before, x, resolved, bound⟩ := exists_find?_of_foldlM (foldlM_of_build built) hd
    refine ⟨x, bound, ParamDef.isFinite_of_resolve resolved, ?_,
      fun y given => ParamDef.eq_of_resolve given resolved⟩
    rw [← lists.numbers, number, bound]
    rfl

end ParamTable

/-- A fan, and the angle of each of its blades, whose number is left open. -/
def fan : List ParamDef :=
  [⟨"turn", .angle, .literal 90 (some "deg")⟩, ⟨"blades", .count, .param "nowhere"⟩,
    ⟨"pitch", .angle, .binary .div (.param "turn") (.param "blades")⟩]

/-- The blades of a fan. -/
def fourBlades : Overrides := .ofList [("blades", 4)]

/-- The order of the definitions matters. -/
theorem fan_acceptance :
    ParamDef.WellDefined fourBlades .mm fan ∧ ¬ ParamDef.WellDefined fourBlades .mm fan.reverse := by
  refine ⟨(ParamTable.build_acceptance fan fourBlades .mm).1.1 ?_, fun well => ?_⟩
  · exact ⟨⟨.mm, .ofList [("turn", ⟨.angle, 90⟩), ("blades", ⟨.count, 4⟩),
      ("pitch", ⟨.angle, 22.5⟩)]⟩, by decide +kernel⟩
  · obtain ⟨table, built⟩ := (ParamTable.build_acceptance fan.reverse fourBlades .mm).1.2 well
    have refused : ParamTable.build fan.reverse fourBlades .mm = .error (.paramMissing "turn") := by
      decide +kernel
    rw [refused] at built
    cases built

end PartPlan
