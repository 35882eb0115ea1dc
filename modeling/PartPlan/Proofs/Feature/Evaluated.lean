/-
The normal form of a feature, seen from outside. Every number in it is written
out, so it has the same value for whatever parameters and in whatever units,
and evaluating it a second time changes nothing (`Feature.normal_normal`). What
a feature declares and refers to stands in it as before, only that selectors
are in normal form; so none of that depends on the parameters.
-/
import PartPlan.Proofs.Feature.Acceptance
import PartPlan.Proofs.Feature.Normal
import PartPlan.Proofs.Selector.Normal

namespace PartPlan

variable {table table' : ParamTable}

-- ======================================================== evaluating again

section Again

variable (table table')

theorem Axis.evaluated_evaluated (a : Axis) :
    (a.evaluated table).evaluated table' = a.evaluated table := by
  cases a <;> rfl

theorem Depth.evaluated_evaluated (d : Depth) :
    (d.evaluated table).evaluated table' = d.evaluated table := by
  cases d <;> rfl

theorem Sweep.evaluated_evaluated (a : Sweep) :
    (a.evaluated table).evaluated table' = a.evaluated table := by
  cases a <;> rfl

theorem Profile.evaluated_evaluated (p : Profile) :
    (p.evaluated table).evaluated table' = p.evaluated table := by
  cases p with
  | polygon sides radius center rotation => cases rotation <;> rfl
  | _ => rfl

theorem NamedProfile.evaluated_evaluated (p : NamedProfile) :
    (p.evaluated table).evaluated table' = p.evaluated table := by
  unfold NamedProfile.evaluated
  rw [Profile.evaluated_evaluated]

theorem SlotType.evaluated_evaluated (t : SlotType) (v : t.Value) :
    t.evaluated table' (t.evaluated table v) = t.evaluated table v := by
  cases t with
  | axis => exact Axis.evaluated_evaluated table table' v
  | depth => exact Depth.evaluated_evaluated table table' v
  | sweep => exact Sweep.evaluated_evaluated table table' v
  | profile => exact Profile.evaluated_evaluated table table' v
  | sections =>
    refine List.map_map.trans (List.map_congr_left fun p _ => ?_)
    exact Profile.evaluated_evaluated table table' p
  | declarations =>
    refine List.map_map.trans (List.map_congr_left fun p _ => ?_)
    exact NamedProfile.evaluated_evaluated table table' p
  | geometry c => exact Selector.normal_normal v
  | _ => rfl

theorem Feature.evaluated_evaluated (f : Feature) :
    (f.evaluated table).evaluated table' = f.evaluated table := by
  unfold Feature.evaluated
  dsimp only
  congr 1
  rw [FeatureKind.evaluated_eq, FeatureKind.evaluated_eq, Payload.mapM_mapM_id]
  simp only [SlotType.evaluated_evaluated]

end Again

-- ======================================================== accepting again

theorem Scalar.IsNumber.evaluated {d d' : Dimension} {s : Scalar} (h : s.IsNumber table d) :
    (s.evaluated table d).IsNumber table' d' := ⟨_, rfl, h.isFinite_number⟩

theorem Scalar.IsSize.evaluated {s : Scalar} (h : s.IsSize table) :
    (s.evaluated table .length).IsSize table' := ⟨h.1.evaluated, h.2⟩

theorem Scalar.IsCount.evaluated {minimum : ℕ} {s : Scalar} (h : s.IsCount table minimum) :
    (s.evaluated table .count).IsCount table' minimum := ⟨h.1.evaluated, h.2⟩

theorem Point2.IsPosition.evaluated {p : Point2} (h : p.IsPosition table) :
    (p.evaluated table).IsPosition table' := ⟨h.1.evaluated, h.2.evaluated⟩

theorem Point3.IsTriple.evaluated {d : Dimension} {p : Point3} (h : p.IsTriple table d) :
    (p.evaluated table d).IsTriple table' d := ⟨h.1.evaluated, h.2.1.evaluated, h.2.2.evaluated⟩

theorem Axis.Valid.evaluated {a : Axis} (h : a.Valid table) : (a.evaluated table).Valid table' := by
  cases a with
  | vector p => exact ⟨h.1.evaluated, h.2⟩
  | direction d => trivial
  | sketchNormal => trivial

theorem Depth.Valid.evaluated {d : Depth} (h : d.Valid table) :
    (d.evaluated table).Valid table' := by
  cases d with
  | distance s => exact Scalar.IsSize.evaluated h
  | throughAll => trivial

theorem Sweep.Valid.evaluated {a : Sweep} (h : a.Valid table) :
    (a.evaluated table).Valid table' := by
  cases a with
  | angle s => exact Scalar.IsNumber.evaluated h
  | full => trivial

theorem Profile.Valid.evaluated {p : Profile} (h : p.Valid table) :
    (p.evaluated table).Valid table' := by
  cases p with
  | rectangle width height center =>
    obtain ⟨w, l, c⟩ := h
    exact ⟨w.evaluated, l.evaluated, c.evaluated⟩
  | circle radius center =>
    obtain ⟨r, c⟩ := h
    exact ⟨r.evaluated, c.evaluated⟩
  | polygon sides radius center rotation =>
    obtain ⟨s, r, c, turn⟩ := h
    refine ⟨s.evaluated, r.evaluated, c.evaluated, fun a ha => ?_⟩
    obtain ⟨b, hb, rfl⟩ := Option.map_eq_some_iff.1 ha
    exact (turn b hb).evaluated
  | ref name => trivial

theorem Profile.IsFigure.evaluated {p : Profile} (h : p.IsFigure) :
    (p.evaluated table).IsFigure := by
  cases p with
  | ref name => exact absurd rfl (h name)
  | _ => exact fun name same => nomatch same

theorem NamedProfile.Valid.evaluated {p : NamedProfile} (h : p.Valid table) :
    (p.evaluated table).Valid table' := ⟨h.1.evaluated, h.2.evaluated⟩

theorem SlotType.Valid.evaluated {t : SlotType} {v : t.Value} (h : t.Valid table v) :
    t.Valid table' (t.evaluated table v) := by
  cases t with
  | axis => exact Axis.Valid.evaluated h
  | length => exact Scalar.IsNumber.evaluated h
  | size => exact Scalar.IsSize.evaluated h
  | count => exact Scalar.IsCount.evaluated h
  | point2 => exact Point2.IsPosition.evaluated h
  | point3 => exact Point3.IsTriple.evaluated h
  | depth => exact Depth.Valid.evaluated h
  | sweep => exact Sweep.Valid.evaluated h
  | profile => exact Profile.Valid.evaluated h
  | sections =>
    obtain ⟨two, valid⟩ := h
    refine ⟨two.trans_eq (List.length_map _).symm, ?_⟩
    exact List.forall_mem_map.2 fun p hp => (valid p hp).evaluated
  | declarations => exact List.forall_mem_map.2 fun p hp => NamedProfile.Valid.evaluated (h p hp)
  | output => exact h
  | _ => trivial

/-- An action that keeps values valid keeps a payload valid. -/
theorem Payload.Valid.mapM_id {ss : List Slot} {p : Payload ss} (h : p.Valid table ss)
    {act : (t : SlotType) → t.Value → t.Value}
    (keeps : ∀ (t : SlotType) (v : t.Value), t.Valid table v → t.Valid table' (act t v)) :
    (mapM (m := Id) (fun _ => act) ss p).Valid table' ss := by
  induction ss with
  | nil => trivial
  | cons s ss ih =>
    obtain ⟨v, p⟩ := p
    refine ⟨fun w hw => ?_, ih h.2⟩
    obtain ⟨u, hu, rfl⟩ := Option.map_eq_some_iff.1 ((Slot.content?_mapM_id s v).symm.trans hw)
    exact keeps s.type u (h.1 u hu)

theorem FeatureKind.Valid.evaluated {k : FeatureKind} {p : Payload k.slots} (h : k.Valid table p) :
    k.Valid table' (k.evaluated table p) := by
  rw [FeatureKind.valid_iff, FeatureKind.evaluated_eq]
  exact ((FeatureKind.valid_iff table k p).1 h).mapM_id fun t v => SlotType.Valid.evaluated

theorem Feature.Valid.evaluated {f : Feature} (h : f.Valid table) :
    (f.evaluated table).Valid table' := ⟨h.1, h.2.evaluated⟩

/-- A normal form is its own normal form, for whatever parameters. -/
theorem Feature.normal_normal {f g : Feature} (h : f.normal table = .ok g) :
    g.normal table' = .ok g := by
  obtain ⟨valid, rfl⟩ := (f.accepts table g).1 h
  refine ((f.evaluated table).accepts table' _).2 ⟨valid.evaluated, ?_⟩
  exact (f.evaluated_evaluated table table').symm

-- ======================================================= what stays the same

/-- An entry of a feature in normal form. -/
def Entry.evaluated (table : ParamTable) (e : Entry) : Entry :=
  ⟨e.name, e.type, e.type.evaluated table e.value⟩

namespace Entry

variable (e : Entry)

theorem output?_evaluated : (e.evaluated table).output? = e.output? := by
  obtain ⟨name, type, value⟩ := e
  cases type <;> rfl

theorem pattern?_evaluated : (e.evaluated table).pattern? = e.pattern? := by
  obtain ⟨name, type, value⟩ := e
  cases type <;> rfl

theorem selector?_evaluated :
    (e.evaluated table).selector? = e.selector?.map SelectorSlot.normal := by
  obtain ⟨name, type, value⟩ := e
  cases type <;> rfl

theorem declared_evaluated : (e.evaluated table).declared = e.declared := by
  obtain ⟨name, type, value⟩ := e
  cases type with
  | declarations => exact List.map_map
  | _ => rfl

theorem profileRefs_evaluated : (e.evaluated table).profileRefs = e.profileRefs := by
  have same (p : Profile) : (p.evaluated table).refName? = p.refName? := by cases p <;> rfl
  obtain ⟨name, type, value⟩ := e
  cases type with
  | profile => exact congrArg Option.toList (same value)
  | sections => exact List.filterMap_map.trans (List.filterMap_congr fun p _ => same p)
  | _ => rfl

end Entry

namespace Feature

variable (f : Feature)

theorem id_evaluated : (f.evaluated table).id = f.id := rfl

theorem deps_evaluated : (f.evaluated table).deps = f.deps := rfl

theorem isPattern_evaluated : (f.evaluated table).isPattern = f.isPattern := rfl

theorem entries_evaluated : (f.evaluated table).entries = f.entries.map (Entry.evaluated table) := by
  show (f.kind.evaluated table f.payload).entries f.kind.slots = _
  rw [FeatureKind.evaluated_eq, Payload.entries_mapM_id]
  rfl

theorem outputs_evaluated : (f.evaluated table).outputs = f.outputs := by
  unfold outputs
  rw [entries_evaluated, List.filterMap_map]
  exact List.filterMap_congr fun e _ => e.output?_evaluated

theorem declaredProfiles_evaluated : (f.evaluated table).declaredProfiles = f.declaredProfiles := by
  unfold declaredProfiles
  rw [entries_evaluated, List.flatMap_map]
  exact List.flatMap_congr fun e _ => e.declared_evaluated

theorem profileRefs_evaluated : (f.evaluated table).profileRefs = f.profileRefs := by
  unfold profileRefs
  rw [entries_evaluated, List.flatMap_map]
  exact List.flatMap_congr fun e _ => e.profileRefs_evaluated

theorem patternRef?_evaluated : (f.evaluated table).patternRef? = f.patternRef? := by
  unfold patternRef?
  rw [entries_evaluated, List.findSome?_map]
  exact congrArg (f.entries.findSome? ·) (funext fun e => e.pattern?_evaluated)

theorem selectorSlots_evaluated :
    (f.evaluated table).selectorSlots = f.selectorSlots.map SelectorSlot.normal := by
  unfold selectorSlots
  rw [entries_evaluated, List.filterMap_map, List.map_filterMap]
  exact List.filterMap_congr fun e _ => e.selector?_evaluated

end Feature
end PartPlan
