/-
Features under other ids. A feature has an id, and names others in its explicit
dependencies, in its layout and in its selectors (`Feature.Names`);
`Feature.rename` replaces all of these and nothing else. So what a feature
declares stays, what it mentions is renamed (`mentions_rename`), and as long as
different ids stay different its references lead to where they led
(`refersTo_rename`).

Scalars hold no ids and selectors are compared only by what is the same in them,
so it makes no difference whether a feature is renamed before or after it is
brought to normal form (`evaluated_rename`).
-/
import PartPlan.Proofs.Feature.Evaluated
import PartPlan.Proofs.Graph.References
import PartPlan.Proofs.Selector.Renaming

namespace PartPlan

variable {ρ : String → String} {known : Set String} {table : ParamTable}

-- =============================================================== renaming

/-- A value with other names for the features in it. -/
def SlotType.rename (ρ : String → String) : (t : SlotType) → t.Value → t.Value
  | .geometry _, s => Selector.rename ρ s
  | .pattern, ref => PatternRef.mk (ρ (PatternRef.name ref))
  | _, v => v

/-- An entry with other names for the features in it. -/
def Entry.rename (ρ : String → String) (e : Entry) : Entry :=
  ⟨e.name, e.type, e.type.rename ρ e.value⟩

/-- A feature with another id, and other names for the features it names. -/
def Feature.rename (ρ : String → String) (f : Feature) : Feature :=
  ⟨ρ f.id, f.deps.map ρ, f.tags, f.kind,
    Payload.mapM (m := Id) (fun _ => SlotType.rename ρ) f.kind.slots f.payload⟩

/-- A reference with another name for the feature it leads to. -/
def Reference.rename (ρ : String → String) : Reference → Reference
  | dep id => dep (ρ id)
  | profile name => profile name
  | pattern id => pattern (ρ id)
  | output field name => output field name
  | creator field id => creator field (ρ id)
  | free field query => free field (query.rename ρ)

/-- The ids that occur in a value. -/
def SlotType.Names : (t : SlotType) → t.Value → String → Prop
  | .geometry _, s, id => Selector.Names s id
  | .pattern, ref, id => PatternRef.name ref = id
  | _, _, _ => False

/-- The ids that occur in a feature. -/
inductive Feature.Names (f : Feature) : String → Prop
  | own : Names f f.id
  | dep {id : String} (listed : id ∈ f.deps) : Names f id
  | entry {e : Entry} {id : String} (filled : e ∈ f.entries) (names : e.type.Names e.value id) :
      Names f id

-- ============================================================ what changes

namespace Feature

variable {f : Feature}

theorem entries_rename (f : Feature) : (f.rename ρ).entries = f.entries.map (Entry.rename ρ) :=
  Payload.entries_mapM_id f.payload

theorem mem_entries_rename {slot : String} {t : SlotType} {v : t.Value} :
    ⟨slot, t, v⟩ ∈ (f.rename ρ).entries ↔ ∃ w, ⟨slot, t, w⟩ ∈ f.entries ∧ v = t.rename ρ w := by
  rw [entries_rename, List.mem_map]
  constructor
  · intro h
    obtain ⟨⟨slot, t, w⟩, filled, same⟩ := h
    cases same
    exact ⟨w, filled, rfl⟩
  · intro h
    obtain ⟨w, filled, rfl⟩ := h
    exact ⟨_, filled, rfl⟩

theorem outputs_rename (f : Feature) : (f.rename ρ).outputs = f.outputs := by
  unfold outputs
  rw [entries_rename, List.filterMap_map]
  refine List.filterMap_congr fun e _ => ?_
  obtain ⟨name, type, value⟩ := e
  cases type <;> rfl

theorem declaredProfiles_rename (f : Feature) :
    (f.rename ρ).declaredProfiles = f.declaredProfiles := by
  unfold declaredProfiles
  rw [entries_rename, List.flatMap_map]
  refine List.flatMap_congr fun e _ => ?_
  obtain ⟨name, type, value⟩ := e
  cases type <;> rfl

theorem exists_of_mentions_rename {r : Reference} (h : (f.rename ρ).Mentions r) :
    ∃ r', f.Mentions r' ∧ r = r'.rename ρ := by
  cases h with
  | dep listed =>
    obtain ⟨id, there, rfl⟩ := List.mem_map.1 listed
    exact ⟨_, .dep there, rfl⟩
  | profile filled =>
    obtain ⟨w, filled, same⟩ := mem_entries_rename.1 filled
    obtain rfl : _ = w := same
    exact ⟨_, .profile filled, rfl⟩
  | sections filled listed =>
    obtain ⟨w, filled, same⟩ := mem_entries_rename.1 filled
    obtain rfl : _ = w := same
    exact ⟨_, .sections filled listed, rfl⟩
  | pattern filled =>
    obtain ⟨ref, there, rfl⟩ := mem_entries_rename.1 filled
    exact ⟨_, .pattern there, rfl⟩
  | output filled within =>
    obtain ⟨s, there, rfl⟩ := mem_entries_rename.1 filled
    exact ⟨_, .output there (Selector.named_within_rename.1 within), rfl⟩
  | creator filled within named =>
    obtain ⟨s, there, rfl⟩ := mem_entries_rename.1 filled
    obtain ⟨ps, rs, inside, rfl, rfl⟩ := Selector.query_within_rename.1 within
    obtain ⟨id, stands, rfl⟩ := Predicate.mem_map_rename.1 named
    exact ⟨.creator _ id, .creator there inside stands, rfl⟩
  | free filled within unnamed =>
    obtain ⟨s, there, rfl⟩ := mem_entries_rename.1 filled
    obtain ⟨ps, rs, inside, rfl, rfl⟩ := Selector.query_within_rename.1 within
    have unnamed' : ∀ id, .createdBy id ∉ ps :=
      fun id named => unnamed (ρ id) (Predicate.mem_map_rename.2 ⟨id, named, rfl⟩)
    refine ⟨_, .free there inside unnamed', ?_⟩
    rw [Reference.rename, Selector.rename_query]

theorem Mentions.rename {r : Reference} (h : f.Mentions r) :
    (f.rename ρ).Mentions (r.rename ρ) := by
  cases h with
  | dep listed => exact .dep (List.mem_map_of_mem listed)
  | profile filled => exact .profile (mem_entries_rename.2 ⟨_, filled, rfl⟩)
  | sections filled listed => exact .sections (mem_entries_rename.2 ⟨_, filled, rfl⟩) listed
  | @pattern slot ref filled =>
    have there : ⟨slot, .pattern, PatternRef.mk (ρ ref.name)⟩ ∈ (f.rename ρ).entries :=
      mem_entries_rename.2 ⟨ref, filled, rfl⟩
    exact .pattern there
  | output filled within =>
    exact .output (mem_entries_rename.2 ⟨_, filled, rfl⟩) (Selector.named_within_rename.2 within)
  | creator filled within named =>
    refine .creator (mem_entries_rename.2 ⟨_, filled, rfl⟩)
      (Selector.query_within_rename.2 ⟨_, _, within, rfl, rfl⟩) ?_
    exact Predicate.mem_map_rename.2 ⟨_, named, rfl⟩
  | free filled within unnamed =>
    rw [Reference.rename, Selector.rename_query]
    refine .free (mem_entries_rename.2 ⟨_, filled, rfl⟩)
      (Selector.query_within_rename.2 ⟨_, _, within, rfl, rfl⟩) fun id named => ?_
    obtain ⟨feature, named, -⟩ := Predicate.mem_map_rename.1 named
    exact unnamed feature named

/-- What a renamed feature mentions is what it mentions, renamed. -/
theorem mentions_rename {r : Reference} :
    (f.rename ρ).Mentions r ↔ ∃ r', f.Mentions r' ∧ r = r'.rename ρ := by
  constructor
  · exact exists_of_mentions_rename
  · intro h
    obtain ⟨r', h, rfl⟩ := h
    exact h.rename

end Feature

-- ============================================================= references

namespace Reference

/-- The id of the feature that a reference leads to stands in it. -/
def Names : Reference → String → Prop
  | dep id, x => id = x
  | pattern id, x => id = x
  | creator _ id, x => id = x
  | _, _ => False

theorem isFree_rename {r : Reference} : (r.rename ρ).IsFree ↔ r.IsFree := by
  cases r <;> rfl

/-- What a feature mentions it names. -/
theorem names_of_mentions {f : Feature} {r : Reference} (h : f.Mentions r) {id : String}
    (names : r.Names id) : f.Names id := by
  cases h with
  | dep listed =>
    obtain rfl : _ = id := names
    exact .dep listed
  | pattern filled => exact .entry filled names
  | creator filled within named =>
    obtain rfl : _ = id := names
    exact .entry filled (Selector.names_of_within within named)
  | _ => exact names.elim

/-- Where different ids stay different, a reference leads to where it led. -/
theorem leadsTo_rename (inj : Set.InjOn ρ known) {r : Reference} {g : Feature}
    (names : ∀ id, r.Names id → id ∈ known) (own : g.id ∈ known) :
    (r.rename ρ).LeadsTo (g.rename ρ) ↔ r.LeadsTo g := by
  cases r with
  | dep id => exact inj.eq_iff own (names id rfl)
  | profile name => exact iff_of_eq (congrArg (name ∈ ·) g.declaredProfiles_rename)
  | pattern id => exact and_congr_left fun _ => inj.eq_iff own (names id rfl)
  | output field name => exact iff_of_eq (congrArg (name ∈ ·) g.outputs_rename)
  | creator field id => exact inj.eq_iff own (names id rfl)
  | free field query => exact Iff.rfl

end Reference

theorem refersTo_rename {features : List Feature} (inj : Set.InjOn ρ known)
    (names : ∀ f ∈ features, ∀ id, f.Names id → id ∈ known) {f : Feature} (hf : f ∈ features)
    {d : String} (hd : d ∈ known) :
    RefersTo (features.map (Feature.rename ρ)) (f.rename ρ) (ρ d) ↔ RefersTo features f d := by
  have same {r : Reference} (mentions : f.Mentions r) {g : Feature} (hg : g ∈ features) :
      (r.rename ρ).LeadsTo (g.rename ρ) ↔ r.LeadsTo g :=
    Reference.leadsTo_rename inj
      (fun id named => names f hf id (Reference.names_of_mentions mentions named))
      (names g hg _ .own)
  constructor
  · intro h
    obtain ⟨r', mentioned, g', listed, leads, id⟩ := h
    obtain ⟨r, mentions, rfl⟩ := Feature.mentions_rename.1 mentioned
    obtain ⟨g, hg, rfl⟩ := List.mem_map.1 listed
    exact ⟨r, mentions, g, hg, (same mentions hg).1 leads, inj (names g hg _ .own) hd id⟩
  · intro h
    obtain ⟨r, mentions, g, hg, leads, rfl⟩ := h
    exact ⟨_, Feature.mentions_rename.2 ⟨r, mentions, rfl⟩, _, List.mem_map_of_mem hg,
      (same mentions hg).2 leads, rfl⟩

-- =========================================================== normal forms

namespace SlotType

theorem Valid.rename {t : SlotType} {v : t.Value} (h : t.Valid table v) :
    t.Valid table (t.rename ρ v) := by
  cases t <;> exact h

theorem evaluated_rename (inj : Set.InjOn ρ known) {t : SlotType} {v : t.Value}
    (names : ∀ id, t.Names v id → id ∈ known) :
    t.evaluated table (t.rename ρ v) = t.rename ρ (t.evaluated table v) := by
  cases t with
  | geometry c => exact Selector.normal_rename inj names
  | _ => rfl

theorem names_of_evaluated {t : SlotType} {v : t.Value} {id : String}
    (h : t.Names (t.evaluated table v) id) : t.Names v id := by
  cases t with
  | geometry c => exact Selector.names_of_normal h
  | pattern => exact h
  | _ => exact h.elim

end SlotType

namespace Feature

variable {f : Feature}

theorem Valid.rename (h : f.Valid table) (filled : Text.trim (ρ f.id) ≠ "") :
    (f.rename ρ).Valid table := by
  refine ⟨filled, (FeatureKind.valid_iff table f.kind _).2 ?_⟩
  exact ((FeatureKind.valid_iff table f.kind f.payload).1 h.2).mapM_id fun t v => SlotType.Valid.rename

/-- The normal form of a feature names nothing else. -/
theorem names_of_evaluated {id : String} (h : (f.evaluated table).Names id) : f.Names id := by
  cases h with
  | own => exact .own
  | dep listed => exact .dep listed
  | entry filled names =>
    rw [entries_evaluated] at filled
    obtain ⟨e, there, rfl⟩ := List.mem_map.1 filled
    exact .entry there (SlotType.names_of_evaluated (t := e.type) names)

theorem evaluated_rename (inj : Set.InjOn ρ known) (names : ∀ id, f.Names id → id ∈ known) :
    (f.rename ρ).evaluated table = (f.evaluated table).rename ρ := by
  have payload : f.kind.evaluated table
        (Payload.mapM (m := Id) (fun _ => SlotType.rename ρ) f.kind.slots f.payload)
      = Payload.mapM (m := Id) (fun _ => SlotType.rename ρ) f.kind.slots
        (f.kind.evaluated table f.payload) := by
    rw [FeatureKind.evaluated_eq, FeatureKind.evaluated_eq, Payload.mapM_mapM_id,
      Payload.mapM_mapM_id]
    refine Payload.mapM_congr _ fun e filled => ?_
    exact SlotType.evaluated_rename inj fun id named => names id (.entry filled named)
  exact congrArg (Feature.mk (ρ f.id) (f.deps.map ρ) f.tags f.kind) payload

end Feature
end PartPlan
