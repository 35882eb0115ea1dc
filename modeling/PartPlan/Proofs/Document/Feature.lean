/-
Features read back. A feature is a record of its own fields and those of its
kind, so it is read as it was if each of its slots is, and a slot if the type
of its value is. The text of a finite feature therefore says everything about
it, which is what makes its hash worth comparing.
-/
import PartPlan.Plan.Fingerprint
import PartPlan.Proofs.Document.Selector
import PartPlan.Proofs.Feature.Acceptance
import PartPlan.Proofs.Feature.Slots

namespace PartPlan

open Json (Textual Reads)

theorem BooleanOp.innerKeyword?_name (op : BooleanOp) :
    Json.innerKeyword? choices (.str op.name) = some op := by
  cases op <;> decide

-- ============================================================= slot types

namespace SlotType

/-- All numbers in a value are finite. -/
def IsFinite : (t : SlotType) → t.Value → Prop
  | axis, v => Axis.IsFinite v
  | length, v => Scalar.IsFinite v
  | size, v => Scalar.IsFinite v
  | count, v => Scalar.IsFinite v
  | point2, v => Point2.IsFinite v
  | point3, v => Point3.IsFinite v
  | depth, v => Depth.IsFinite v
  | sweep, v => Sweep.IsFinite v
  | profile, v => Profile.IsFinite v
  | sections, v => ∀ p ∈ (v : List Profile), p.IsFinite
  | declarations, v => ∀ p ∈ (v : List NamedProfile), p.profile.IsFinite
  | _, _ => True

theorem reads (t : SlotType) (v : t.Value) (h : t.IsFinite v) :
    Reads t.ofReadable? (t.toJson v) v := by
  cases t with
  | direction => exact Direction.reads v
  | axis => exact Axis.reads v h
  | length => exact Scalar.reads v h
  | size => exact Scalar.reads v h
  | count => exact Scalar.reads v h
  | point2 => exact Point2.reads v h
  | point3 => exact Point3.reads v h
  | depth => exact Depth.reads v h
  | sweep => exact Sweep.reads v h
  | operation => exact ⟨BooleanOp.innerKeyword?_name v, .str _⟩
  | profile => exact Profile.reads _ v h
  | sections =>
    exact ⟨Json.list?_map fun p hp => (p.reads _ (h p hp)).read,
      Json.textual_map fun p hp => (p.reads .named (h p hp)).textual⟩
  | declarations =>
    exact ⟨Json.list?_map fun p hp => (p.reads (h p hp)).read,
      Json.textual_map fun p hp => (p.reads (h p hp)).textual⟩
  | geometry c => exact Selector.reads _ v
  | pattern => exact PatternRef.reads _ v
  | output => exact ⟨rfl, .str _⟩

/-- `null` is no value of any type, so that it can stand for a missing one. -/
theorem ofReadable?_null (t : SlotType) : t.ofReadable? .null = none := by
  have scalar := Scalar.ofReadable?_null
  cases t with
  | length => exact scalar
  | size => exact scalar
  | count => exact scalar
  | depth =>
    show Depth.ofReadable? .null = none
    rw [Depth.ofReadable?, scalar]
    rfl
  | sweep =>
    show Sweep.ofReadable? .null = none
    rw [Sweep.ofReadable?, scalar]
    rfl
  | geometry c =>
    show Selector.ofReadable? .namedOrNumbered .null = none
    rw [Selector.ofReadable?]
    rfl
  | _ => rfl

end SlotType

-- ======================================================= slots and payloads

/-- All numbers in a slot are finite. -/
def Slot.IsFinite (s : Slot) (v : s.Value) : Prop := ∀ w ∈ s.content? v, s.type.IsFinite w

theorem Slot.ofField?_content? (s : Slot) (v : s.Value) (h : s.IsFinite v) :
    s.ofField? ((s.content? v).map s.type.toJson) = some v := by
  obtain ⟨name, type, presence⟩ := s
  cases presence with
  | required => exact (type.reads v (h v rfl)).read
  | defaulted value => exact (type.reads v (h v rfl)).read
  | optional =>
    exact Json.optional_map type.ofReadable?_null fun w hw => (type.reads w (h w hw)).read

namespace Payload

/-- All numbers in a payload are finite. -/
def IsFinite : (ss : List Slot) → Payload ss → Prop
  | [], _ => True
  | s :: ss, (v, p) => s.IsFinite v ∧ IsFinite ss p

variable {ss : List Slot}

theorem names_toFields (p : Payload ss) : (p.toFields ss).map Prod.fst = ss.map Slot.name := by
  induction ss with
  | nil => rfl
  | cons s ss ih =>
    obtain ⟨v, p⟩ := p
    rw [toFields, List.map_cons, List.map_cons, ih]

theorem ofFields?_toFields (p : Payload ss) (h : p.IsFinite ss) :
    ofFields? ss ((p.toFields ss).map Prod.snd) = some p := by
  induction ss with
  | nil => rfl
  | cons s ss ih =>
    obtain ⟨v, p⟩ := p
    rw [toFields, List.map_cons, ofFields?, s.ofField?_content? v h.1, ih p h.2]
    rfl

theorem textual_toFields (p : Payload ss) (h : p.IsFinite ss) :
    ∀ f ∈ p.toFields ss, ∀ v ∈ f.2, Textual v := by
  induction ss with
  | nil => exact fun f hf => nomatch hf
  | cons s ss ih =>
    obtain ⟨v, p⟩ := p
    rw [toFields, List.forall_mem_cons]
    refine ⟨fun u hu => ?_, ih p h.2⟩
    obtain ⟨w, hw, rfl⟩ := Option.map_eq_some_iff.1 hu
    exact (s.type.reads w (h.1 w hw)).textual

end Payload

-- =============================================================== features

/-- The names of the fields of a feature are distinct. -/
theorem FeatureKind.nodup_names (k : FeatureKind) :
    (["id", "deps", "tags", "kind"] ++ k.slots.map Slot.name).Nodup := by
  cases k <;> decide

theorem FeatureKind.choice?_tag (k : FeatureKind) : Json.choice? forms k.tag = some k := by
  cases k <;> decide

namespace Feature

/-- All numbers in a feature are finite. -/
def IsFinite (f : Feature) : Prop := f.payload.IsFinite f.kind.slots

/-- A feature is read from its own fields together with fields that its slots are read
from. -/
theorem ofReadable?_record (f : Feature) {fields : List (String × Option Json)}
    (names : fields.map Prod.fst = f.kind.slots.map Slot.name)
    (payload : Payload.ofFields? f.kind.slots (fields.map Prod.snd) = some f.payload) :
    ofReadable? (Json.record (f.headFields ++ fields)) = some f := by
  have strings (l : List String) : Json.defaulted [] (Json.list? Json.text?)
      (Json.nonEmpty (l.map .str)) = some l := Json.defaulted_nonEmpty fun _ _ => rfl
  have distinct : ((f.headFields ++ fields).map Prod.fst).Nodup := by
    rw [List.map_append, names]
    exact f.kind.nodup_names
  have head : Json.Body.fields? ["id", "deps", "tags"]
      (.members (Json.membersOf (f.headFields ++ fields)))
      = some [some (.str f.id), Json.nonEmpty (f.deps.map .str), Json.nonEmpty (f.tags.map .str)] :=
    Json.mapM_sole? distinct
      fun g hg => List.mem_append_left _ (List.mem_of_mem_take (l := f.headFields) (i := 3) hg)
  have tagged : Json.taggedFields? .namedOrNumbered FeatureKind.forms
      (fun k => k.slots.map Slot.name) (Json.record (f.headFields ++ fields))
        = some (f.kind, fields.map Prod.snd) :=
    Json.taggedFields?_record distinct (List.mem_append_left _ (by simp [headFields]))
      f.kind.choice?_tag (fun g hg => List.mem_append_right _ hg) names.symm
  have members : (Json.record (f.headFields ++ fields)).members?
      = some (Json.membersOf (f.headFields ++ fields)) := rfl
  rw [ofReadable?, members, tagged]
  simp only [Option.bind_eq_bind, Option.bind_some]
  rw [head]
  simp only [Json.required, Option.bind_some, Json.text?, strings, payload]

theorem textual_record (f : Feature) {fields : List (String × Option Json)}
    (each : ∀ g ∈ fields, ∀ v ∈ g.2, Textual v) :
    Textual (Json.record (f.headFields ++ fields)) := by
  have items (l : List String) : ∀ v ∈ Json.nonEmpty (l.map Json.str), Textual v :=
    Json.textual_nonEmpty (List.forall_mem_map.2 fun s _ => .str s)
  have text (s : String) : ∀ v ∈ some (Json.str s), Textual v := by
    intro v hv
    cases hv
    exact .str s
  refine Json.textual_record (List.forall_mem_append.2 ⟨?_, each⟩)
  simp only [headFields, List.forall_mem_cons]
  exact ⟨text _, items _, items _, text _, List.forall_mem_nil _⟩

theorem reads (f : Feature) (h : f.IsFinite) : Reads ofReadable? f.toJson f :=
  ⟨f.ofReadable?_record f.payload.names_toFields (f.payload.ofFields?_toFields h),
    f.textual_record (f.payload.textual_toFields h)⟩

/-- Finite features with the same text are the same. -/
theorem eq_of_bytes_hashInput {f g : Feature} (hf : f.IsFinite) (hg : g.IsFinite)
    (same : f.hashInput.bytes = g.hashInput.bytes) : f = g := by
  have textual (f : Feature) (h : f.IsFinite) : f.hashInput.Textual :=
    Json.textual_record (by simp [Textual.str, (f.reads h).textual])
  have text : f.hashInput = g.hashInput :=
    Json.bytes_inj (textual f hf).faithful (textual g hg).faithful same
  have written : f.toJson = g.toJson := by simpa [hashInput, Json.record] using text
  have read := (f.reads hf).read
  rw [written, (g.reads hg).read] at read
  exact (Option.some.inj read).symm

end Feature
-- ============================================================ normal forms

section NormalForms

variable {table : ParamTable}

theorem Scalar.isFinite_evaluated {d : Dimension} {s : Scalar} (h : s.IsNumber table d) :
    (s.evaluated table d).IsFinite := h.isFinite_number

theorem Point2.isFinite_evaluated {p : Point2} (h : p.IsPosition table) :
    (p.evaluated table).IsFinite :=
  ⟨Scalar.isFinite_evaluated h.1, Scalar.isFinite_evaluated h.2⟩

theorem Point3.isFinite_evaluated {d : Dimension} {p : Point3} (h : p.IsTriple table d) :
    (p.evaluated table d).IsFinite :=
  ⟨Scalar.isFinite_evaluated h.1, Scalar.isFinite_evaluated h.2.1, Scalar.isFinite_evaluated h.2.2⟩

theorem Axis.isFinite_evaluated {a : Axis} (h : a.Valid table) : (a.evaluated table).IsFinite := by
  cases a with
  | vector components => exact Point3.isFinite_evaluated h.1
  | direction d => trivial
  | sketchNormal => trivial

theorem Depth.isFinite_evaluated {d : Depth} (h : d.Valid table) :
    (d.evaluated table).IsFinite := by
  cases d with
  | distance s => exact Scalar.isFinite_evaluated h.1
  | throughAll => trivial

theorem Sweep.isFinite_evaluated {a : Sweep} (h : a.Valid table) :
    (a.evaluated table).IsFinite := by
  cases a with
  | angle s => exact Scalar.isFinite_evaluated h
  | full => trivial

theorem Profile.isFinite_evaluated {p : Profile} (h : p.Valid table) :
    (p.evaluated table).IsFinite := by
  cases p with
  | rectangle width height center =>
    obtain ⟨w, l, c⟩ := h
    exact ⟨Scalar.isFinite_evaluated w.1, Scalar.isFinite_evaluated l.1,
      Point2.isFinite_evaluated c⟩
  | circle radius center =>
    obtain ⟨r, c⟩ := h
    exact ⟨Scalar.isFinite_evaluated r.1, Point2.isFinite_evaluated c⟩
  | polygon sides radius center rotation =>
    obtain ⟨s, r, c, turn⟩ := h
    refine ⟨Scalar.isFinite_evaluated s.1, Scalar.isFinite_evaluated r.1,
      Point2.isFinite_evaluated c, fun a ha => ?_⟩
    obtain ⟨b, hb, rfl⟩ := Option.map_eq_some_iff.1 ha
    exact Scalar.isFinite_evaluated (turn b hb)
  | ref name => trivial

theorem SlotType.isFinite_evaluated (t : SlotType) {v : t.Value} (h : t.Valid table v) :
    t.IsFinite (t.evaluated table v) := by
  cases t with
  | axis => exact Axis.isFinite_evaluated h
  | length => exact Scalar.isFinite_evaluated h
  | size => exact Scalar.isFinite_evaluated h.1
  | count => exact Scalar.isFinite_evaluated h.1
  | point2 => exact Point2.isFinite_evaluated h
  | point3 => exact Point3.isFinite_evaluated h
  | depth => exact Depth.isFinite_evaluated h
  | sweep => exact Sweep.isFinite_evaluated h
  | profile => exact Profile.isFinite_evaluated h
  | sections => exact List.forall_mem_map.2 fun p hp => Profile.isFinite_evaluated (h.2 p hp)
  | declarations => exact List.forall_mem_map.2 fun p hp => Profile.isFinite_evaluated (h p hp).1
  | _ => trivial

theorem Payload.isFinite_evaluated {ss : List Slot} {p : Payload ss} (h : p.Valid table ss) :
    (mapM (m := Id) (fun _ => SlotType.evaluated table) ss p).IsFinite ss := by
  induction ss with
  | nil => trivial
  | cons s ss ih =>
    obtain ⟨v, p⟩ := p
    refine ⟨fun w hw => ?_, ih h.2⟩
    obtain ⟨u, hu, rfl⟩ := Option.map_eq_some_iff.1 ((Slot.content?_mapM_id s v).symm.trans hw)
    exact s.type.isFinite_evaluated (h.1 u hu)

/-- A feature in normal form has only finite numbers. -/
theorem Feature.isFinite_normal {f g : Feature} (h : f.normal table = .ok g) : g.IsFinite := by
  obtain ⟨valid, rfl⟩ := (f.accepts table g).1 h
  show (f.kind.evaluated table f.payload).IsFinite f.kind.slots
  rw [FeatureKind.evaluated_eq]
  exact Payload.isFinite_evaluated ((FeatureKind.valid_iff table f.kind f.payload).1 valid)

end NormalForms
end PartPlan
