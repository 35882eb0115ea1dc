/-
Normalization accepts the valid features and no others, and what it makes of
one is what `Feature.evaluated` says. The normalizer goes slot by slot, so the
argument does too: each of its functions accepts just what the slot type
demands, a payload is accepted if its filled slots are, and what the slots of a
kind demand together is what `FeatureKind.Valid` lists.
-/
import PartPlan.Part
import PartPlan.Proofs.Checked
import PartPlan.Proofs.Feature.Valid

namespace PartPlan

open Checked (Accepts)

-- =========================================================== output names

namespace Text

theorem afterStart?_eq_some {start cs rest : List Char} :
    afterStart? start cs = some rest ↔ cs = start ++ rest := by
  induction start generalizing cs with
  | nil => rw [afterStart?, Option.some.injEq, List.nil_append]
  | cons p ps ih =>
    cases cs with
    | nil => simp [afterStart?]
    | cons c cs =>
      rw [afterStart?, List.cons_append, List.cons.injEq, ← ih]
      split
      · next same => rw [and_iff_right same.symm]
      · next other => simp [Ne.symm other]

theorem isOutputChar_iff {c : Char} :
    isOutputChar c = true ↔ c.isAlphanum = true ∨ c ∈ ['_', '.', '-'] := by
  have upper : c.isUpper = ('A' ≤ c && c ≤ 'Z') := Bool.decide_and ..
  have letter : isLetter c = c.isAlpha := by
    show _ = (c.isUpper || c.isLower)
    rw [isLetter, Bool.or_comm, upper]
    rfl
  have digit : isDigit c = c.isDigit := rfl
  unfold isOutputChar Char.isAlphanum
  rw [letter, digit]
  simp [or_assoc]

theorem isOutputName_append {word : String} (known : word ∈ ["body", "surface"])
    (rest : List Char) :
    isOutputName (word ++ ":" ++ String.ofList rest) = true
      ↔ rest ≠ [] ∧ ∀ c ∈ rest, isOutputChar c = true := by
  have after : (afterStart? "body:".toList (word ++ ":" ++ String.ofList rest).toList
      <|> afterStart? "surface:".toList (word ++ ":" ++ String.ofList rest).toList)
      = some rest := by
    rw [List.mem_pair] at known
    rcases known with rfl | rfl
    · simp [afterStart?]
    · simp [afterStart?]
  unfold isOutputName
  dsimp only
  rw [after]
  cases rest with
  | nil => simp
  | cons c cs => simp

theorem exists_word_of_isOutputName {s : String} (h : isOutputName s = true) :
    ∃ word ∈ ["body", "surface"], ∃ rest, s = word ++ ":" ++ String.ofList rest := by
  unfold isOutputName at h
  dsimp only at h
  cases body : afterStart? "body:".toList s.toList with
  | some rest =>
    refine ⟨"body", by simp, rest, String.toList_injective ?_⟩
    rw [afterStart?_eq_some.1 body]
    simp
  | none =>
    cases surface : afterStart? "surface:".toList s.toList with
    | some rest =>
      refine ⟨"surface", by simp, rest, String.toList_injective ?_⟩
      rw [afterStart?_eq_some.1 surface]
      simp
    | none =>
      rw [body, surface] at h
      cases h

theorem isOutputName_iff {s : String} : isOutputName s = true ↔ IsOutputName s := by
  constructor
  · intro h
    obtain ⟨word, known, rest, rfl⟩ := exists_word_of_isOutputName h
    obtain ⟨filled, allowed⟩ := (isOutputName_append known rest).1 h
    exact ⟨word, known, rest, filled, fun c hc => isOutputChar_iff.1 (allowed c hc), rfl⟩
  · intro h
    obtain ⟨word, known, rest, filled, allowed, rfl⟩ := h
    exact (isOutputName_append known rest).2
      ⟨filled, fun c hc => isOutputChar_iff.2 (allowed c hc)⟩

end Text

-- ======================================================= scalars and sizes

theorem Scalar.IsNumber.isFinite_number {table : ParamTable} {d : Dimension} {s : Scalar}
    (h : s.IsNumber table d) : (s.number table d).isFinite = true := by
  obtain ⟨x, evaluates, finite⟩ := h
  unfold number
  rw [evaluates]
  exact finite

namespace Normalizer

variable (n : Normalizer)

theorem accepts_number (s : Scalar) (d : Dimension) (field : String) :
    Accepts (n.number s d field) (s.IsNumber n.table d) (s.number n.table d) := by
  unfold number ParamTable.evaluate Scalar.IsNumber Scalar.number
  cases s.eval n.table d with
  | error e => exact (Accepts.error e _).congr (by simp)
  | ok x =>
    refine Accepts.congr (P := x.isFinite = true) ?_ (by simp)
    show Accepts (if x.isFinite = true then .ok x else .error _) _ x
    split
    · next finite => exact (Accepts.ok x).congr (by simp [finite])
    · next other => exact (Accepts.error _ x).congr (by simp [other])

theorem accepts_length (s : Scalar) (field : String) :
    Accepts (n.length s field) (s.IsNumber n.table .length) (s.evaluated n.table .length) :=
  (n.accepts_number s .length field).bind_ok _

theorem accepts_angle (s : Scalar) (field : String) :
    Accepts (n.angle s field) (s.IsNumber n.table .angle) (s.evaluated n.table .angle) :=
  (n.accepts_number s .angle field).bind_ok _

theorem accepts_size (s : Scalar) (field : String) :
    Accepts (n.size s field) (s.IsSize n.table) (s.evaluated n.table .length) := by
  refine (n.accepts_number s .length field).bind fun given => ?_
  refine (Accepts.check (.ok _)).congr ?_
  rw [and_true, Number.le_iff given.isFinite_number Number.isFinite_zero, Number.value_zero, not_le]

theorem accepts_count {minimum : ℕ} (positive : 1 ≤ minimum)
    (finite : (Float.ofNat minimum).isFinite = true)
    (exactly : Number.value (Float.ofNat minimum) = minimum) (s : Scalar) (field : String) :
    Accepts (n.count minimum s field) (s.IsCount n.table minimum) (s.evaluated n.table .count) := by
  refine (n.accepts_number s .count field).bind fun given => ?_
  refine (Accepts.check (.check (.ok _))).congr ?_
  have least : ((1 : ℕ) : ℚ) ≤ minimum := by exact_mod_cast positive
  rw [← Number.isWhole_and_le_iff, and_true, Bool.or_eq_true, decide_eq_true_iff, not_or,
    Bool.not_eq_true', Bool.not_eq_false, and_assoc, and_congr_right_iff]
  intro _
  rw [Number.lt_iff given.isFinite_number finite, exactly, not_lt]
  refine and_iff_right_of_imp fun above => ?_
  have := Number.lt_iff given.isFinite_number Number.isFinite_one
  show ¬(s.number n.table .count < Float.ofNat 1)
  rw [Number.lt_iff given.isFinite_number Number.isFinite_one, Number.value_one, not_lt]
  exact least.trans above

theorem accepts_point2 (p : Point2) (field : String) :
    Accepts (n.point2 p field) (p.IsPosition n.table) (p.evaluated n.table) := by
  refine (n.accepts_length p.x _).bind fun _ => ?_
  exact (n.accepts_length p.y _).bind_ok _

theorem accepts_point3 (p : Point3) (field : String) :
    Accepts (n.point3 p field) (p.IsTriple n.table .length) (p.evaluated n.table .length) := by
  refine (n.accepts_length p.x _).bind fun _ => ?_
  refine (n.accepts_length p.y _).bind fun _ => ?_
  exact (n.accepts_length p.z _).bind_ok _

theorem accepts_depth (d : Depth) (field : String) :
    Accepts (n.depth d field) (d.Valid n.table) (d.evaluated n.table) := by
  cases d with
  | throughAll => exact .ok _
  | distance s => exact (n.accepts_size s field).bind_ok _

theorem accepts_sweep (a : Sweep) (field : String) :
    Accepts (n.sweep a field) (a.Valid n.table) (a.evaluated n.table) := by
  cases a with
  | full => exact .ok _
  | angle s => exact (n.accepts_angle s field).bind_ok _

theorem accepts_axis (a : Axis) (field : String) :
    Accepts (n.axis a field) (a.Valid n.table) (a.evaluated n.table) := by
  cases a with
  | direction d => exact .ok _
  | sketchNormal => exact .ok _
  | vector p =>
    have parts : Accepts (n.axis (.vector p) field) (p.x.IsNumber n.table .count
        ∧ p.y.IsNumber n.table .count ∧ p.z.IsNumber n.table .count ∧ ¬p.IsZero n.table .count)
        (Axis.evaluated n.table (.vector p)) := by
      refine (n.accepts_number p.x .count _).bind fun hx => ?_
      refine (n.accepts_number p.y .count _).bind fun hy => ?_
      refine (n.accepts_number p.z .count _).bind fun hz => ?_
      refine (Accepts.check (.ok _)).congr ?_
      have zero {s : Scalar} (h : s.IsNumber n.table .count) :
          (s.number n.table .count == 0) = true ↔ Number.value (s.number n.table .count) = 0 := by
        rw [Number.beq_iff h.isFinite_number Number.isFinite_zero, Number.value_zero]
      rw [and_true, Bool.and_eq_true, Bool.and_eq_true, zero hx, zero hy, zero hz, and_assoc]
      rfl
    exact parts.congr (by unfold Axis.Valid Point3.IsTriple; tauto)

theorem accepts_profile (p : Profile) (field : String) :
    Accepts (n.profile true p field) (p.Valid n.table) (p.evaluated n.table) := by
  cases p with
  | rectangle width height center =>
    refine (n.accepts_size width _).bind fun _ => ?_
    refine (n.accepts_size height _).bind fun _ => ?_
    exact (n.accepts_point2 center _).bind_ok _
  | circle radius center =>
    refine (n.accepts_size radius _).bind fun _ => ?_
    exact (n.accepts_point2 center _).bind_ok _
  | polygon sides radius center rotation =>
    have three := n.accepts_count (by decide) Number.isFinite_three Number.value_three sides
    refine (three _).bind fun _ => ?_
    refine (n.accepts_size radius _).bind fun _ => ?_
    refine (n.accepts_point2 center _).bind fun _ => ?_
    cases rotation with
    | none => exact (Accepts.ok _).congr (by simp)
    | some r => exact (((n.accepts_angle r _).map some).bind_ok _).congr (by simp)
  | ref name => exact .ok _

theorem accepts_figure (p : Profile) (field : String) :
    Accepts (n.profile false p field) (p.Valid n.table ∧ p.IsFigure) (p.evaluated n.table) := by
  by_cases named : ∃ name, p = .ref name
  · obtain ⟨name, rfl⟩ := named
    exact (Accepts.error _ _).congr (by simp [Profile.IsFigure])
  · have figure : p.IsFigure := fun name same => named ⟨name, same⟩
    have same : n.profile false p field = n.profile true p field := by
      cases p with
      | ref name => exact absurd rfl (figure name)
      | _ => rfl
    rw [same]
    exact (n.accepts_profile p field).congr (by rw [and_iff_left figure])

theorem accepts_sections (ps : List Profile) (field : String) :
    Accepts (n.sections ps field) (2 ≤ ps.length ∧ Each (Profile.Valid n.table) ps)
      (ps.map (Profile.evaluated n.table)) := by
  refine Accepts.congr (Accepts.check (c := ps.length < 2) (Accepts.mapM_zipIdx fun p i =>
    n.accepts_profile p (field ++ "[" ++ toString i ++ "]"))) ?_
  rw [not_lt]
  rfl

theorem accepts_declarations (ps : List NamedProfile) (field : String) :
    Accepts (n.declarations ps field) (Each (NamedProfile.Valid n.table) ps)
      (ps.map (NamedProfile.evaluated n.table)) :=
  Accepts.mapM fun p _ => (n.accepts_figure p.profile (field ++ "." ++ p.name)).bind_ok _

theorem accepts_output (name : String) : Accepts (n.output name) (IsOutputName name) name := by
  unfold output
  rw [← Text.isOutputName_iff]
  split
  · next accepted => exact (Accepts.ok name).congr (by simp [accepted])
  · next refused => exact (Accepts.error _ name).congr (by simp [refused])

end Normalizer

-- ========================================================= slots and kinds

namespace SlotType

/-- What a slot type demands of a value. -/
def Valid (table : ParamTable) : (t : SlotType) → t.Value → Prop
  | .direction, _ => True
  | .axis, v => Axis.Valid table v
  | .length, v => Scalar.IsNumber table .length v
  | .size, v => Scalar.IsSize table v
  | .count, v => Scalar.IsCount table 1 v
  | .point2, v => Point2.IsPosition table v
  | .point3, v => Point3.IsTriple table .length v
  | .depth, v => Depth.Valid table v
  | .sweep, v => Sweep.Valid table v
  | .operation, _ => True
  | .profile, v => Profile.Valid table v
  | .sections, v => 2 ≤ List.length v ∧ Each (Profile.Valid table) v
  | .declarations, v => Each (NamedProfile.Valid table) v
  | .geometry _, _ => True
  | .pattern, _ => True
  | .output, v => IsOutputName v

/-- What a value becomes in a slot of a type. -/
def evaluated (table : ParamTable) : (t : SlotType) → t.Value → t.Value
  | .direction, v => v
  | .axis, v => Axis.evaluated table v
  | .length, v => Scalar.evaluated table .length v
  | .size, v => Scalar.evaluated table .length v
  | .count, v => Scalar.evaluated table .count v
  | .point2, v => Point2.evaluated table v
  | .point3, v => Point3.evaluated table .length v
  | .depth, v => Depth.evaluated table v
  | .sweep, v => Sweep.evaluated table v
  | .operation, v => v
  | .profile, v => Profile.evaluated table v
  | .sections, v => List.map (Profile.evaluated table) v
  | .declarations, v => List.map (NamedProfile.evaluated table) v
  | .geometry _, v => Selector.normal v
  | .pattern, v => v
  | .output, v => v

theorem accepts (n : Normalizer) (field : String) (t : SlotType) (v : t.Value) :
    Accepts (n.slot field t v) (t.Valid n.table v) (t.evaluated n.table v) := by
  cases t with
  | direction => exact .ok _
  | axis => exact n.accepts_axis v field
  | length => exact n.accepts_length v field
  | size => exact n.accepts_size v field
  | count => exact n.accepts_count le_rfl Number.isFinite_one Number.value_one v field
  | point2 => exact n.accepts_point2 v field
  | point3 => exact n.accepts_point3 v field
  | depth => exact n.accepts_depth v field
  | sweep => exact n.accepts_sweep v field
  | operation => exact .ok _
  | profile => exact n.accepts_profile v field
  | sections => exact n.accepts_sections v field
  | declarations => exact n.accepts_declarations v field
  | geometry c => exact .ok _
  | pattern => exact .ok _
  | output => exact n.accepts_output v

end SlotType

namespace Slot

variable {table : ParamTable} {name : String} {t : SlotType}

/-- What is in a slot is as its type demands. -/
def Valid (table : ParamTable) (s : Slot) (v : s.Value) : Prop :=
  IfGiven (s.type.Valid table) (s.content? v)

theorem valid_required {v : (required name t).Value} :
    (required name t).Valid table v ↔ t.Valid table v := ifGiven_some

theorem valid_defaulted {value : t.Value} {v : (defaulted name t value).Value} :
    (defaulted name t value).Valid table v ↔ t.Valid table v := ifGiven_some

theorem accepts (n : Normalizer) (s : Slot) (v : s.Value) :
    Accepts (s.mapM (n.slot s.name) v) (s.Valid n.table v)
      (s.mapM (m := Id) (SlotType.evaluated n.table) v) := by
  obtain ⟨name, type, presence⟩ := s
  cases presence with
  | required => exact (type.accepts n name v).congr valid_required.symm
  | defaulted value => exact (type.accepts n name v).congr valid_defaulted.symm
  | optional =>
    cases v with
    | none => exact (Accepts.ok none).congr (by simp [Valid, content?])
    | some w => exact ((type.accepts n name w).map some).congr (by simp [Valid, content?])

end Slot

namespace Payload

/-- Every filled slot holds what its type demands. -/
def Valid (table : ParamTable) : (ss : List Slot) → Payload ss → Prop
  | [], _ => True
  | s :: ss, (v, p) => s.Valid table v ∧ Valid table ss p

theorem accepts (n : Normalizer) (ss : List Slot) (p : Payload ss) :
    Accepts (mapM n.slot ss p) (p.Valid n.table ss)
      (mapM (m := Id) (fun _ => SlotType.evaluated n.table) ss p) := by
  induction ss with
  | nil => exact .ok _
  | cons s ss ih =>
    obtain ⟨v, p⟩ := p
    refine (s.accepts n v).bind fun _ => ?_
    exact (ih p).bind_ok _

end Payload

namespace FeatureKind

/-- What the slots of a kind demand is what has been said of it. -/
theorem valid_iff (table : ParamTable) (k : FeatureKind) (p : Payload k.slots) :
    k.Valid table p ↔ p.Valid table k.slots := by
  have axis {name v} : (Slot.optional name .axis).Valid table v ↔ IfGiven (Axis.Valid table) v :=
    Iff.rfl
  have output {name v} : (Slot.optional name .output).Valid table v ↔ IfGiven IsOutputName v :=
    Iff.rfl
  have pattern {name v} : (Slot.optional name .pattern).Valid table v := fun _ _ => trivial
  have geometry {name c v} : (Slot.optional name (.geometry c)).Valid table v := fun _ _ => trivial
  fun_cases FeatureKind.Valid table k p
  all_goals
    simp [Payload.Valid, slots, Slot.valid_required, Slot.valid_defaulted, axis, output, pattern,
      geometry, SlotType.Valid, and_assoc]

theorem evaluated_eq (table : ParamTable) (k : FeatureKind) (p : Payload k.slots) :
    k.evaluated table p = p.mapM (m := Id) (fun _ => SlotType.evaluated table) k.slots := by
  cases k with
  | sketch => obtain ⟨_ | plane, profiles, _⟩ := p <;> rfl
  | extrude => obtain ⟨profile, depth, _ | axis, result, _ | pattern, _⟩ := p <;> rfl
  | hole => obtain ⟨on, position, diameter, depth, _ | pattern, _ | result, _⟩ := p <;> rfl
  | fillet => obtain ⟨edges, radius, _ | result, _⟩ := p <;> rfl
  | chamfer => obtain ⟨edges, distance, _ | result, _⟩ := p <;> rfl
  | shell => obtain ⟨target, _ | remove, thickness, _ | result, _⟩ := p <;> rfl
  | _ => rfl

end FeatureKind

-- ====================================================== features and parts

theorem Feature.accepts (table : ParamTable) (f : Feature) :
    Accepts (f.normal table) (f.kind.Valid table f.payload) (f.evaluated table) := by
  have payload := (Payload.accepts ⟨table, f.id⟩ f.kind.slots f.payload).bind_ok
    fun p => (⟨f.id, f.deps, f.tags, f.kind, p⟩ : Feature)
  rw [← FeatureKind.evaluated_eq] at payload
  exact payload.congr (FeatureKind.valid_iff table f.kind f.payload).symm

theorem Part.accepts_features (table : ParamTable) (features : List Feature) :
    Accepts (normalFeatures table features) (∀ f ∈ features, f.Valid table)
      (features.map (Feature.evaluated table)) := by
  refine Accepts.mapM_zipIdx fun f i => ?_
  refine ((f.accepts table).check (c := Text.isBlankText f.id = true)).congr ?_
  rw [Feature.Valid, ne_eq, Text.trim_eq_empty]

/-- If the parameters of a part can be evaluated, the part has a normal form
exactly if each of its features is valid. The normal form then has the same
features in the same order, each with its numbers and the normal forms of its
selectors. -/
theorem Part.normal_accepts_valid (p : Part) (overrides : Overrides) (options : Options)
    {table : ParamTable}
    (built : ParamTable.build p.params overrides (p.effectiveUnits options) = .ok table) :
    ((∃ n, p.normal overrides options = .ok n) ↔ ∀ f ∈ p.features, f.Valid table)
      ∧ ∀ n, p.normal overrides options = .ok n →
        n.partId = p.id ∧ n.units = p.effectiveUnits options ∧ n.params = table
          ∧ n.features = p.features.map (Feature.evaluated table) := by
  have accepts : Accepts (p.normal overrides options) (∀ f ∈ p.features, f.Valid table)
      ⟨p.id, p.effectiveUnits options, table, p.features.map (Feature.evaluated table),
        if options.dataOnlyDiagnostics && p.hasAnnotations then [p.annotationWarning] else []⟩ := by
    unfold normal
    dsimp only
    rw [built]
    exact (accepts_features table p.features).bind_ok _
  constructor
  · constructor
    · intro h
      obtain ⟨n, hn⟩ := h
      exact ((accepts n).1 hn).1
    · intro h
      exact ⟨_, (accepts _).2 ⟨h, rfl⟩⟩
  · intro n hn
    obtain ⟨-, rfl⟩ := (accepts n).1 hn
    exact ⟨rfl, rfl, rfl, rfl⟩

/-- A nut: a hexagonal prism whose size is a parameter. -/
def hexNut : Part where
  id := "nut"
  units := some .mm
  params := [⟨"size", .length, .literal 0.5 (some "cm")⟩]
  features := [⟨"body", [], [], .extrude,
    (.polygon (.value 6) (.param "size") .origin none, .distance (.value 4), none, "body:nut", none,
      ())⟩]
  constraints := []
  assertions := []
  fti := none

theorem hexNut_accepted : ∃ table n,
    ParamTable.build hexNut.params .empty (hexNut.effectiveUnits .standard) = .ok table
      ∧ hexNut.normal .empty .standard = .ok n ∧ (∀ f ∈ hexNut.features, f.Valid table)
      ∧ n.features = hexNut.features.map (Feature.evaluated table) := by
  have built : ∃ table, ParamTable.build hexNut.params .empty (hexNut.effectiveUnits .standard)
      = .ok table := ⟨_, rfl⟩
  have normal : ∃ n, hexNut.normal .empty .standard = .ok n := ⟨_, rfl⟩
  obtain ⟨table, built⟩ := built
  obtain ⟨n, normal⟩ := normal
  obtain ⟨accepted, shape⟩ := hexNut.normal_accepts_valid .empty .standard built
  obtain ⟨-, -, -, features⟩ := shape n normal
  exact ⟨table, n, built, normal, accepted.1 ⟨n, normal⟩, features⟩

end PartPlan
