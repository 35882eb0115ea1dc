/-
Scalars and figures read back. What is written of a scalar, a point, an axis, a
profile or an extent is read as that very thing, if all its numbers are finite:
a number that is not is written as `null`.
-/
import PartPlan.Profile
import PartPlan.Proofs.Json.Record

namespace PartPlan

open Json (Textual Reads taggedFields?_taggedRecord optional_map textual_taggedRecord)

-- ================================================================ scalars

theorem Json.float?_ofFloat {x : Float} (h : x.isFinite = true) :
    Json.float? (.ofFloat x) = some x := by
  rw [Json.ofFloat, if_pos h]
  rfl

theorem Operator.innerKeyword?_sign (op : Operator) :
    Json.innerKeyword? Operator.choices (.str op.sign) = some op := by
  cases op <;> rfl

namespace Scalar

/-- All numbers in a scalar are finite. -/
def IsFinite : Scalar → Prop
  | value x => x.isFinite = true
  | literal x _ => x.isFinite = true
  | param _ => True
  | binary _ left right => left.IsFinite ∧ right.IsFinite
  | neg operand => operand.IsFinite

theorem textual_toJson (s : Scalar) : s.toJson.Textual := by
  induction s with
  | value x => exact Json.Textual.ofFloat x
  | literal x unit =>
    exact textual_taggedRecord (by simp [Json.Textual.ofFloat, Textual.str])
  | param id => exact textual_taggedRecord (by simp [Textual.str])
  | binary op left right ihl ihr => exact textual_taggedRecord (by simp [Textual.str, ihl, ihr])
  | neg operand ih => exact textual_taggedRecord (by simp [ih])

/-- The scalar that the fields of a form stand for. -/
def ofFields? : Form → List (Option Json) → Option Scalar
  | .literal, [x, unit] => do
    some (.literal (← Json.required Json.float? x) (← Json.optional Json.text? unit))
  | .param, [id] => .param <$> Json.required Json.text? id
  | .binary, [op, some left, some right] => do
    some (.binary (← Json.required (Json.innerKeyword? Operator.choices) op)
      (← ofReadable? left) (← ofReadable? right))
  | .neg, [some operand] => .neg <$> ofReadable? operand
  | _, _ => none

theorem ofReadable?_taggedRecord (form : Form) {tag : String} {fields : List (String × Option Json)}
    (known : Json.choice? forms tag = some form) (declared : form.fields = fields.map Prod.fst)
    (distinct : ("kind" :: form.fields).Nodup) :
    ofReadable? (Json.taggedRecord tag fields) = ofFields? form (fields.map Prod.snd) := by
  have tagged : Json.taggedFields? .namedOrNumbered forms Form.fields (Json.taggedRecord tag fields)
      = some (form, fields.map Prod.snd) := taggedFields?_taggedRecord known declared distinct
  rw [ofReadable?, show (Json.taggedRecord tag fields).float? = none from rfl]
  dsimp only
  generalize Json.taggedFields? .namedOrNumbered forms Form.fields _ = q at tagged ⊢
  subst tagged
  generalize fields.map Prod.snd = fs
  unfold ofFields?
  split
  case h_5 =>
    split
    case h_5 => rfl
    all_goals simp_all
  all_goals
    next same =>
    cases same
    rfl

theorem ofReadable?_toJson (s : Scalar) (h : s.IsFinite) : ofReadable? s.toJson = some s := by
  induction s with
  | value x => rw [toJson, ofReadable?, Json.float?_ofFloat h]
  | literal x unit =>
    have unit' : Json.optional Json.text? (unit.map .str) = some unit :=
      optional_map rfl fun _ _ => rfl
    rw [toJson, ofReadable?_taggedRecord .literal rfl rfl (by decide)]
    simp [ofFields?, Json.required, Json.float?_ofFloat h, unit']
  | param id =>
    rw [toJson, ofReadable?_taggedRecord .param rfl rfl (by decide)]
    rfl
  | binary op left right ihl ihr =>
    rw [toJson, ofReadable?_taggedRecord .binary rfl rfl (by decide)]
    simp [ofFields?, Json.required, op.innerKeyword?_sign, ihl h.1, ihr h.2]
  | neg operand ih =>
    rw [toJson, ofReadable?_taggedRecord .neg rfl rfl (by decide)]
    simp [ofFields?, ih h]

theorem reads (s : Scalar) (h : s.IsFinite) : Reads ofReadable? s.toJson s :=
  ⟨s.ofReadable?_toJson h, s.textual_toJson⟩

theorem ofReadable?_null : ofReadable? .null = none := by
  rw [ofReadable?]
  rfl

/-- No scalar is written as a keyword. -/
theorem keyword?_toJson {α : Type} (choices : List (String × α)) (s : Scalar) :
    Json.keyword? choices s.toJson = none := by
  cases s with
  | value x =>
    rw [toJson, Json.ofFloat]
    split <;> rfl
  | literal x unit => cases unit <;> rfl
  | param id => rfl
  | binary op left right => rfl
  | neg operand => rfl

end Scalar

-- ===================================================== directions and points

theorem Direction.reads (d : Direction) : Reads ofJson? d.toJson d :=
  ⟨by cases d <;> decide, .str _⟩

namespace Point2

/-- Both coordinates are finite. -/
def IsFinite (p : Point2) : Prop := p.x.IsFinite ∧ p.y.IsFinite

theorem reads (p : Point2) (h : p.IsFinite) : Reads ofReadable? p.toJson p := by
  have x := p.x.reads h.1
  have y := p.y.reads h.2
  refine ⟨?_, .arr (by simp [x.textual, y.textual])⟩
  simp [toJson, ofReadable?, x.read, y.read]

end Point2

namespace Point3

/-- All components are finite. -/
def IsFinite (p : Point3) : Prop := p.x.IsFinite ∧ p.y.IsFinite ∧ p.z.IsFinite

theorem reads (p : Point3) (h : p.IsFinite) : Reads ofReadable? p.toJson p := by
  have x := p.x.reads h.1
  have y := p.y.reads h.2.1
  have z := p.z.reads h.2.2
  refine ⟨?_, .arr (by simp [x.textual, y.textual, z.textual])⟩
  simp [toJson, ofReadable?, x.read, y.read, z.read]

end Point3

-- ================================================= axes, profiles, extents

namespace Axis

/-- The components of a vector are finite. -/
def IsFinite : Axis → Prop
  | vector components => components.IsFinite
  | direction _ => True
  | sketchNormal => True

theorem reads (a : Axis) (h : a.IsFinite) : Reads ofReadable? a.toJson a := by
  cases a with
  | direction d => exact ⟨by cases d <;> decide, .str _⟩
  | sketchNormal =>
    have tagged : Json.taggedFields? .namedOrNumbered forms Form.fields sketchNormal.toJson
        = some (.sketchNormal, []) := taggedFields?_taggedRecord rfl rfl (by decide)
    refine ⟨?_, textual_taggedRecord (by simp)⟩
    rw [ofReadable?, tagged]
    exact fun _ h => nomatch h
  | vector components =>
    have c := components.reads h
    have tagged : Json.taggedFields? .namedOrNumbered forms Form.fields (vector components).toJson
        = some (.vector, [some components.toJson]) :=
      taggedFields?_taggedRecord rfl rfl (by decide)
    refine ⟨?_, textual_taggedRecord (by simp [c.textual])⟩
    rw [ofReadable?, tagged]
    · exact congrArg (Option.map vector) c.read
    · exact fun _ h => nomatch h

end Axis

namespace Profile

/-- All measures of a profile are finite. -/
def IsFinite : Profile → Prop
  | rectangle width height center => width.IsFinite ∧ height.IsFinite ∧ center.IsFinite
  | circle radius center => radius.IsFinite ∧ center.IsFinite
  | polygon sides radius center rotation =>
    sides.IsFinite ∧ radius.IsFinite ∧ center.IsFinite ∧ ∀ r ∈ rotation, r.IsFinite
  | ref _ => True

theorem reads (style : Json.TagStyle) (p : Profile) (h : p.IsFinite) :
    Reads (ofReadable? style) p.toJson p := by
  cases p with
  | rectangle width height center =>
    have w := width.reads h.1
    have l := height.reads h.2.1
    have c := center.reads h.2.2
    have tagged : Json.taggedFields? style forms Form.fields (rectangle width height center).toJson
        = some (.rectangle, [some width.toJson, some height.toJson, some center.toJson]) :=
      taggedFields?_taggedRecord rfl rfl (by decide)
    refine ⟨?_, textual_taggedRecord (by simp [w.textual, l.textual, c.textual])⟩
    rw [ofReadable?, tagged]
    simp [Json.required, Json.defaulted, w.read, l.read, c.read]
  | circle radius center =>
    have r := radius.reads h.1
    have c := center.reads h.2
    have tagged : Json.taggedFields? style forms Form.fields (circle radius center).toJson
        = some (.circle, [some radius.toJson, some center.toJson]) :=
      taggedFields?_taggedRecord rfl rfl (by decide)
    refine ⟨?_, textual_taggedRecord (by simp [r.textual, c.textual])⟩
    rw [ofReadable?, tagged]
    simp [Json.required, Json.defaulted, r.read, c.read]
  | polygon sides radius center rotation =>
    have s := sides.reads h.1
    have r := radius.reads h.2.1
    have c := center.reads h.2.2.1
    have turn : Json.optional Scalar.ofReadable? (rotation.map Scalar.toJson) = some rotation :=
      optional_map Scalar.ofReadable?_null fun a ha => (a.reads (h.2.2.2 a ha)).read
    have tagged : Json.taggedFields? style forms Form.fields
        (polygon sides radius center rotation).toJson
        = some (.polygon, [some sides.toJson, some radius.toJson, some center.toJson,
          rotation.map Scalar.toJson]) :=
      taggedFields?_taggedRecord rfl rfl (by decide)
    refine ⟨?_, textual_taggedRecord ?_⟩
    · rw [ofReadable?, tagged]
      simp [Json.required, Json.defaulted, s.read, r.read, c.read, turn]
    · simp [s.textual, r.textual, c.textual, Scalar.textual_toJson]
  | ref name =>
    have tagged : Json.taggedFields? style forms Form.fields (ref name).toJson
        = some (.ref, [some (.str name)]) := taggedFields?_taggedRecord rfl rfl (by decide)
    refine ⟨?_, textual_taggedRecord (by simp [Textual.str])⟩
    rw [ofReadable?, tagged]
    rfl

end Profile

namespace NamedProfile

theorem reads (p : NamedProfile) (h : p.profile.IsFinite) : Reads ofReadable? p.toJson p := by
  have profile := p.profile.reads .namedOrNumbered h
  have fields : p.toJson.fields? ["name", "profile"]
      = some [some (.str p.name), some p.profile.toJson] := Json.fields?_record (by simp)
  refine ⟨?_, Json.textual_record (by simp [Textual.str, profile.textual])⟩
  rw [ofReadable?, fields]
  simp [Json.required, Json.text?, profile.read]

end NamedProfile

namespace Depth

/-- A distance is finite. -/
def IsFinite : Depth → Prop
  | distance d => d.IsFinite
  | throughAll => True

theorem reads (d : Depth) (h : d.IsFinite) : Reads ofReadable? d.toJson d := by
  cases d with
  | throughAll => exact ⟨rfl, .str _⟩
  | distance s =>
    have scalar := s.reads h
    refine ⟨?_, scalar.textual⟩
    show ofReadable? s.toJson = _
    rw [ofReadable?, Scalar.keyword?_toJson, scalar.read]
    rfl

end Depth

namespace Sweep

/-- An angle is finite. -/
def IsFinite : Sweep → Prop
  | angle a => a.IsFinite
  | full => True

theorem reads (a : Sweep) (h : a.IsFinite) : Reads ofReadable? a.toJson a := by
  cases a with
  | full => exact ⟨rfl, .str _⟩
  | angle s =>
    have scalar := s.reads h
    refine ⟨?_, scalar.textual⟩
    show ofReadable? s.toJson = _
    rw [ofReadable?, Scalar.keyword?_toJson, scalar.read]
    rfl

end Sweep

theorem PatternRef.reads (style : Json.TagStyle) (r : PatternRef) :
    Reads (ofReadable? style) r.toJson r := by
  have tagged : Json.taggedFields? style [("pattern.ref", ())] (fun _ => ["name"]) r.toJson
      = some ((), [some (.str r.name)]) := taggedFields?_taggedRecord rfl rfl (by decide)
  refine ⟨?_, textual_taggedRecord (by simp [Textual.str])⟩
  rw [ofReadable?, tagged]
  rfl

end PartPlan
