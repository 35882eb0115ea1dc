/-
Selectors read back. Predicates, rank rules and selectors are written as
tagged records and read as they were. A rule may hold a selector again, so the
law of the selectors is assumed of the targets of the rules first.
-/
import PartPlan.Proofs.Document.Geometry
import PartPlan.Proofs.Selector.Nesting

namespace PartPlan

open Json (Textual Reads taggedFields?_taggedRecord textual_taggedRecord textual_map)

-- ============================================================= predicates

theorem Predicate.reads (style : Json.TagStyle) (p : Predicate) :
    Reads (ofReadable? style) p.toJson p := by
  cases p with
  | planar =>
    have tagged : Json.taggedFields? style forms Form.fields planar.toJson = some (.planar, []) :=
      taggedFields?_taggedRecord rfl rfl (by decide)
    refine ⟨?_, textual_taggedRecord (by simp)⟩
    rw [ofReadable?, tagged]
  | normal d =>
    have tagged : Json.taggedFields? style forms Form.fields (normal d).toJson
        = some (.normal, [some d.toJson]) := taggedFields?_taggedRecord rfl rfl (by decide)
    refine ⟨?_, textual_taggedRecord (by simp [d.reads.textual])⟩
    rw [ofReadable?, tagged]
    exact congrArg (Option.map normal) d.reads.read
  | createdBy feature =>
    have tagged : Json.taggedFields? style forms Form.fields (createdBy feature).toJson
        = some (.createdBy, [some (.str feature)]) :=
      taggedFields?_taggedRecord rfl rfl (by decide)
    refine ⟨?_, textual_taggedRecord (by simp [Textual.str])⟩
    rw [ofReadable?, tagged]
    rfl
  | role value =>
    have tagged : Json.taggedFields? style forms Form.fields (role value).toJson
        = some (.role, [some (.str value)]) := taggedFields?_taggedRecord rfl rfl (by decide)
    refine ⟨?_, textual_taggedRecord (by simp [Textual.str])⟩
    rw [ofReadable?, tagged]
    rfl

-- ============================================================= rank rules

namespace RankRule

/-- The rank rule that the fields of a form stand for. -/
def ofFields? : Form → List (Option Json) → Option RankRule
  | .maxArea, _ => some .maxArea
  | .minZ, _ => some .minZ
  | .maxZ, _ => some .maxZ
  | .closestTo, [some target] => .closestTo <$> Selector.ofReadable? .namedOrNumbered target
  | _, _ => none

theorem ofReadable?_taggedRecord (style : Json.TagStyle) (form : Form) {tag : String}
    {fields : List (String × Option Json)} (known : Json.choice? forms tag = some form)
    (declared : form.fields = fields.map Prod.fst) (distinct : ("kind" :: form.fields).Nodup) :
    ofReadable? style (Json.taggedRecord tag fields) = ofFields? form (fields.map Prod.snd) := by
  have tagged : Json.taggedFields? style forms Form.fields (Json.taggedRecord tag fields)
      = some (form, fields.map Prod.snd) := taggedFields?_taggedRecord known declared distinct
  rw [ofReadable?]
  generalize Json.taggedFields? style forms Form.fields _ = q at tagged ⊢
  subst tagged
  generalize fields.map Prod.snd = fs
  unfold ofFields?
  split
  case h_5 =>
    split
    case h_5 => rfl
    all_goals simp_all
  all_goals
    next same =>
    cases same
    rfl

/-- A rank rule is read if its target is. -/
theorem reads_of_target (style : Json.TagStyle) (r : RankRule)
    (target : ∀ t, r = .closestTo t → Reads (Selector.ofReadable? .namedOrNumbered) t.toJson t) :
    Reads (ofReadable? style) r.toJson r := by
  cases r with
  | maxArea =>
    exact ⟨ofReadable?_taggedRecord style .maxArea rfl rfl (by decide),
      textual_taggedRecord (by simp)⟩
  | minZ =>
    exact ⟨ofReadable?_taggedRecord style .minZ rfl rfl (by decide),
      textual_taggedRecord (by simp)⟩
  | maxZ =>
    exact ⟨ofReadable?_taggedRecord style .maxZ rfl rfl (by decide),
      textual_taggedRecord (by simp)⟩
  | closestTo t =>
    have t' := target t rfl
    refine ⟨?_, textual_taggedRecord (by simp [t'.textual])⟩
    rw [toJson, ofReadable?_taggedRecord style .closestTo rfl rfl (by decide)]
    exact congrArg (Option.map closestTo) t'.read

end RankRule

/-- Rank rules are read if their targets are. -/
theorem rulesOfReadable?_toJson {rs : List RankRule}
    (each : ∀ r ∈ rs, Reads (RankRule.ofReadable? .namedOrNumbered) r.toJson r) :
    rulesOfReadable? (rulesToJson rs) = some rs := by
  induction rs with
  | nil => rw [rulesToJson, rulesOfReadable?]
  | cons r rs ih =>
    obtain ⟨here, rest⟩ := List.forall_mem_cons.1 each
    rw [rulesToJson, rulesOfReadable?, here.read, ih rest]
    rfl

theorem rulesToJson_eq (rs : List RankRule) : rulesToJson rs = rs.map RankRule.toJson := by
  induction rs with
  | nil => rw [rulesToJson, List.map_nil]
  | cons r rs ih => rw [rulesToJson, ih, List.map_cons]

-- ============================================================== selectors

theorem Selector.choice?_query (kind : SelectionKind) :
    Json.choice? forms ("selector." ++ kind.name) = some (.query kind) := by
  cases kind <;> decide

theorem Selector.reads (style : Json.TagStyle) (s : Selector) :
    Reads (ofReadable? style) s.toJson s := by
  induction s using Selector.induction generalizing style with
  | named name =>
    have tagged : Json.taggedFields? style forms Form.fields
        (Json.taggedRecord "selector.named" [("name", some (.str name))])
        = some (.named, [some (.str name)]) := taggedFields?_taggedRecord rfl rfl (by decide)
    rw [toJson]
    refine ⟨?_, textual_taggedRecord (by simp [Textual.str])⟩
    rw [ofReadable?]
    generalize Json.taggedFields? style forms Form.fields _ = q at tagged ⊢
    subst tagged
    rfl
  | query kind ps rs ih =>
    have rules : ∀ r ∈ rs, Reads (RankRule.ofReadable? .namedOrNumbered) r.toJson r := by
      intro r hr
      refine r.reads_of_target _ fun t rule => ih t ?_ _
      rw [← rule]
      exact hr
    have predicates : Json.list? (Predicate.ofReadable? .namedOrNumbered)
        (.arr (ps.map Predicate.toJson)) = some ps :=
      Json.list?_map fun p _ => (p.reads _).read
    have tagged : Json.taggedFields? style forms Form.fields (Json.taggedRecord
          ("selector." ++ kind.name) [("predicates", some (.arr (ps.map Predicate.toJson))),
            ("rank", some (.arr (rulesToJson rs)))])
        = some (.query kind, [some (.arr (ps.map Predicate.toJson)),
            some (.arr (rulesToJson rs))]) :=
      taggedFields?_taggedRecord (choice?_query kind) rfl (by rw [Form.fields]; decide)
    rw [toJson]
    refine ⟨?_, textual_taggedRecord ?_⟩
    · rw [ofReadable?]
      generalize Json.taggedFields? style forms Form.fields _ = q at tagged ⊢
      subst tagged
      simp [Json.defaulted, predicates, rulesOfReadable?_toJson rules]
    · have written := textual_map fun p (_ : p ∈ ps) => (p.reads .named).textual
      have ranked := textual_map fun r hr => (rules r hr).textual
      simp [written, rulesToJson_eq, ranked]

end PartPlan
