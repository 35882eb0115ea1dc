/-
Documents of every type read back. Each type has a reader and a writer, and they
agree: for tagged records because all that is written of them is read and their
numbers are finite, for the others because the readers and the writers of their
fields agree. A part also keeps annotations, which are any values in key order.
-/
import PartPlan.Plan.Compile
import PartPlan.Proofs.Document.Finite
import PartPlan.Proofs.Json.Canonical
import PartPlan.Selection.Context

namespace PartPlan

open Json (Textual Reads RoundTrips FieldRoundTrips FieldReads)

-- ======================================================== keywords and units

theorem UnitSystem.roundTrips : RoundTrips ofJson? toJson :=
  .of_reads fun u => ⟨by cases u <;> rfl, .str _⟩

theorem Dimension.roundTrips : RoundTrips ofJson? toJson :=
  .of_reads fun d => ⟨by cases d <;> rfl, .str _⟩

theorem SelectionKind.roundTrips : RoundTrips ofJson? toJson :=
  .of_reads fun k => ⟨by cases k <;> rfl, .str _⟩

theorem Options.roundTrips : RoundTrips ofJson? toJson :=
  .record₂ mk defaultUnits dataOnlyDiagnostics (fun _ _ => ⟨rfl, rfl⟩) (by decide)
    (.defaulted UnitSystem.roundTrips ⟨rfl, .str _⟩) (.defaulted .bool? ⟨rfl, .bool _⟩)

-- ========================================================= tagged records

theorem Scalar.roundTrips : RoundTrips ofJson? toJson :=
  (RoundTrips.of_grants grants_isFinite reads).whole?

theorem Axis.roundTrips : RoundTrips ofJson? toJson :=
  (RoundTrips.of_grants grants_isFinite reads).whole?

theorem Profile.roundTrips : RoundTrips ofJson? toJson :=
  (RoundTrips.of_grants (grants_isFinite .named) (reads .named)).whole?

theorem Depth.roundTrips : RoundTrips ofJson? toJson :=
  (RoundTrips.of_grants grants_isFinite reads).whole?

theorem Sweep.roundTrips : RoundTrips ofJson? toJson :=
  (RoundTrips.of_grants grants_isFinite reads).whole?

theorem PatternRef.roundTrips : RoundTrips ofJson? toJson :=
  (RoundTrips.of_reads (reads .named)).whole?

theorem Predicate.roundTrips : RoundTrips ofJson? toJson :=
  (RoundTrips.of_reads (reads .named)).whole?

theorem Selector.roundTrips : RoundTrips ofJson? toJson :=
  (RoundTrips.of_reads (reads .named)).whole?

theorem RankRule.roundTrips : RoundTrips ofJson? toJson :=
  (RoundTrips.of_reads fun r => r.reads_of_target .named fun t _ => t.reads _).whole?

theorem Feature.roundTrips : RoundTrips ofJson? toJson :=
  (RoundTrips.of_grants grants_isFinite reads).whole?

-- ============================================================= selections

/-- The shape of what is written tells the type of a piece of metadata. -/
theorem MetaValue.roundTrips : RoundTrips ofJson? toJson := by
  have component (x : Float) (finite : x.isFinite = true) :
      Json.float? (.ofFloat x) = some x := Json.float?_ofFloat finite
  intro v a sound given
  unfold ofJson? at given
  split at given
  · cases given
    exact ⟨rfl, .bool _⟩
  · cases given
    exact ⟨rfl, .str _⟩
  · next x y z =>
    simp only [Option.bind_eq_bind, Option.bind_eq_some_iff, Option.some.injEq] at given
    obtain ⟨x', hx, y', hy, z', hz, rfl⟩ := given
    have items := sound.of_items
    have fx := (items x (by simp)).isFinite_of_float? hx
    have fy := (items y (by simp)).isFinite_of_float? hy
    have fz := (items z (by simp)).isFinite_of_float? hz
    refine ⟨?_, .arr (by simp [Textual.ofFloat])⟩
    simp [toJson, ofJson?, component, fx, fy, fz]
  · obtain ⟨x, number, rfl⟩ := Option.map_eq_some_iff.1 given
    refine ⟨?_, .ofFloat x⟩
    have finite := sound.isFinite_of_float? number
    rw [toJson, Json.ofFloat, if_pos finite]
    rfl

theorem Selection.roundTrips : RoundTrips ofJson? toJson :=
  .record₃ mk id kind metadata (fun _ _ _ => ⟨rfl, rfl, rfl⟩) (by decide) (.required .text?)
    (.required SelectionKind.roundTrips)
    (.defaulted (.map? MetaValue.roundTrips) ⟨rfl, .obj (List.forall_mem_nil _)⟩)

theorem BackendOutput.roundTrips : RoundTrips ofJson? toJson :=
  .record₂ mk outputs selections (fun _ _ => ⟨rfl, rfl⟩) (by decide)
    (.defaulted (.map? Selection.roundTrips) ⟨rfl, .obj (List.forall_mem_nil _)⟩)
    (.defaulted (.list? Selection.roundTrips) ⟨rfl, .arr (List.forall_mem_nil _)⟩)

theorem ResolutionContext.roundTrips : RoundTrips ofJson? toJson :=
  .record₂ mk selections named (fun _ _ => ⟨rfl, rfl⟩) (by decide)
    (.defaulted (.list? Selection.roundTrips) ⟨rfl, .arr (List.forall_mem_nil _)⟩)
    (.defaulted (.map? Selection.roundTrips) ⟨rfl, .obj (List.forall_mem_nil _)⟩)

-- ============================================================= parameters

theorem ParamDef.roundTrips : RoundTrips ofJson? toJson :=
  .record₃ mk id dimension value (fun _ _ _ => ⟨rfl, rfl, rfl⟩) (by decide) (.required .text?)
    (.required Dimension.roundTrips) (.required Scalar.roundTrips)

theorem ParamValue.roundTrips : RoundTrips ofJson? toJson :=
  .record₂ mk dimension value (fun _ _ => ⟨rfl, rfl⟩) (by decide)
    (.required Dimension.roundTrips) (.required .float?)

theorem ParamTable.roundTrips : RoundTrips ofJson? toJson :=
  .record₂ mk units values (fun _ _ => ⟨rfl, rfl⟩) (by decide)
    (.required UnitSystem.roundTrips) (.required (.map? ParamValue.roundTrips))

-- ======================================================== graphs and reports

theorem Edge.reads (e : Edge) : Reads ofJson? e.toJson e :=
  .record (by decide) rfl rfl (by simp [Textual.str])

theorem Graph.reads (g : Graph) : Reads ofJson? g.toJson g := by
  have nodes : Reads (Json.list? Json.text?) (.arr (g.nodes.map .str)) g.nodes :=
    ⟨Json.list?_map fun _ _ => rfl, Json.textual_map fun id _ => .str id⟩
  have edges : Reads (Json.list? Edge.ofJson?) (.arr (g.edges.map Edge.toJson)) g.edges :=
    ⟨Json.list?_map fun e _ => e.reads.read, Json.textual_map fun e _ => e.reads.textual⟩
  refine .record (by decide) rfl ?_ (by simp [nodes.textual, edges.textual])
  simp [Json.required, nodes.read, edges.read]

theorem Graph.roundTrips : RoundTrips ofJson? toJson := .of_reads reads

theorem Diagnostic.reads (d : Diagnostic) : Reads ofJson? d.toJson d := by
  obtain ⟨severity, code, message⟩ := d
  cases severity
  exact .record (by decide) rfl rfl (by simp [Textual.str])

theorem Diagnostic.roundTrips : RoundTrips ofJson? toJson := .of_reads reads

-- ======================================================== parts and plans

/-- An annotation that is left out is not `null`, which counts as missing. -/
theorem Part.roundTrips_annotation : FieldRoundTrips (Json.optional annotation?) fun o => o := by
  have kept : FieldRoundTrips (Json.optional annotation?) fun o => o.map fun v => v := by
    refine .optional Json.RoundTrips.canonical fun v a given isNull => ?_
    obtain ⟨w, whole, rfl⟩ := Option.map_eq_some_iff.1 given
    rw [(Json.of_whole? whole).2]
    exact Json.eq_null_of_canonical isNull
  simpa using kept

theorem Part.roundTrips_annotations :
    FieldRoundTrips (Json.defaulted [] (Json.list? annotation?)) Json.nonEmpty := by
  have kept : FieldRoundTrips (Json.defaulted [] (Json.list? annotation?))
      fun l => Json.nonEmpty (l.map fun v => v) := .nonEmpty Json.RoundTrips.canonical
  simpa using kept

theorem Part.parse_eq_ok {r : Number.Rounding} {refusal : String → String} {text : String}
    {p : Part} : parse r refusal text = .ok p ↔ (Json.parse? r text).bind ofJson? = some p := by
  unfold parse
  cases (Json.parse? r text).bind ofJson? <;> simp

theorem Part.parse_eq_error {r : Number.Rounding} {refusal : String → String} {text : String}
    {e : ValidationError} : parse r refusal text = .error e
      ↔ (Json.parse? r text).bind ofJson? = none ∧ e = .unreadable (refusal text) := by
  unfold parse
  cases (Json.parse? r text).bind ofJson? <;> simp [eq_comm]

theorem Part.roundTrips : RoundTrips ofJson? toJson := by
  refine .record (by decide) (fun _ => rfl) fun fs p sound given => ?_
  split at given
  case h_2 => cases given
  next id units params features constraints assertions fti =>
  simp only [Option.bind_eq_bind, Option.bind_eq_some_iff, Option.some.injEq] at given
  obtain ⟨i, hi, u, hu, ps, hps, fs, hfs, cs, hcs, as, has, t, ht, rfl⟩ := given
  have i' := FieldRoundTrips.required .text? _ _ (sound id (by simp)) hi
  have u' := FieldRoundTrips.optional UnitSystem.roundTrips (fun _ _ _ h => nomatch h) _ _
    (sound units (by simp)) hu
  have ps' := FieldRoundTrips.nonEmpty ParamDef.roundTrips _ _ (sound params (by simp)) hps
  have fs' := FieldRoundTrips.required (.list? Feature.roundTrips) _ _
    (sound features (by simp)) hfs
  have cs' := roundTrips_annotations _ _ (sound constraints (by simp)) hcs
  have as' := roundTrips_annotations _ _ (sound assertions (by simp)) has
  have t' := roundTrips_annotation _ _ (sound fti (by simp)) ht
  constructor
  · simp [i'.read, u'.read, ps'.read, fs'.read, cs'.read, as'.read, t'.read]
  · simp only [List.forall_mem_cons]
    exact ⟨i'.textual, u'.textual, ps'.textual, fs'.textual, cs'.textual, as'.textual,
      t'.textual, List.forall_mem_nil _⟩

namespace BuildPlan

/-- All numbers in a plan are finite. -/
def IsFinite (p : BuildPlan) : Prop := ∀ f ∈ p.features, f.IsFinite

theorem grants_isFinite : Json.Grants ofJson? IsFinite := by
  intro v p sound given
  simp only [ofJson?, Option.bind_eq_bind, Option.bind_eq_some_iff] at given
  obtain ⟨fs, fields, given⟩ := given
  split at given
  · simp only [Option.bind_eq_some_iff] at given
    obtain ⟨_, _, _, _, _, _, _, _, features, hfs, _, _, _, _, same⟩ := given
    cases same
    exact Feature.grants_isFinite.whole?.list?.required (sound.of_fields? fields _ (by simp)) hfs
  · cases given

/-- A plan is read as it is written. -/
theorem reads (p : BuildPlan) (finite : p.IsFinite) : Reads ofJson? p.toJson p := by
  have order : Reads (Json.list? Json.text?) (.arr (p.order.map .str)) p.order :=
    ⟨Json.list?_map fun _ _ => rfl, Json.textual_map fun id _ => .str id⟩
  have features : Reads (Json.list? Feature.ofJson?) (.arr (p.features.map Feature.toJson))
      p.features := by
    have each : ∀ f ∈ p.features, Reads Feature.ofJson? f.toJson f :=
      fun f hf => (f.reads (finite f hf)).whole?
    exact ⟨Json.list?_map fun f hf => (each f hf).read,
      Json.textual_map fun f hf => (each f hf).textual⟩
  have hashes : Reads (Json.map? Json.text?) (Json.ofMap .str p.hashes) p.hashes :=
    ⟨Json.map?_ofMap fun _ _ => rfl, Json.textual_ofMap fun entry _ => .str entry.2⟩
  have diagnostics : Json.defaulted [] (Json.list? Diagnostic.ofJson?)
      (Json.nonEmpty (p.diagnostics.map Diagnostic.toJson)) = some p.diagnostics :=
    Json.defaulted_nonEmpty fun d _ => d.reads.read
  have units : UnitSystem.ofJson? p.units.toJson = some p.units := by cases p.units <;> rfl
  refine .record (by decide) rfl ?_ ?_
  · simp [Json.required, Json.text?, units, order.read, p.graph.reads.read, features.read,
      hashes.read, diagnostics]
  · have reported := Json.textual_nonEmpty
      (List.forall_mem_map.2 fun d (_ : d ∈ p.diagnostics) => d.reads.textual)
    simpa [Textual.str, UnitSystem.toJson, order.textual, p.graph.reads.textual,
      features.textual, hashes.textual] using reported

theorem roundTrips : RoundTrips ofJson? toJson := .of_grants grants_isFinite reads

end BuildPlan

end PartPlan
