/-
What a feature refers to, said once more without any order of checking:
`Feature.Mentions` reads the references off the filled slots of a feature and
off the selectors that occur in them at any depth, and `RefersTo` says which
features they lead to. The list that is checked has the same references,
except that of the free queries of a selector it keeps only the first.
-/
import PartPlan.Graph.References
import PartPlan.Proofs.Feature.Slots
import PartPlan.Proofs.Selector.Nesting

namespace PartPlan

-- ============================================================== mentions

/-- The references that the slots of a feature make. -/
inductive Feature.Mentions (f : Feature) : Reference → Prop
  | dep {id : String} (listed : id ∈ f.deps) : Mentions f (.dep id)
  | profile {slot name : String} (filled : ⟨slot, .profile, Profile.ref name⟩ ∈ f.entries) :
      Mentions f (.profile name)
  | sections {slot name : String} {ps : List Profile} (filled : ⟨slot, .sections, ps⟩ ∈ f.entries)
      (listed : Profile.ref name ∈ ps) : Mentions f (.profile name)
  | pattern {slot : String} {ref : PatternRef} (filled : ⟨slot, .pattern, ref⟩ ∈ f.entries) :
      Mentions f (.pattern ref.name)
  | output {slot name : String} {c : Cardinality} {s : Selector}
      (filled : ⟨slot, .geometry c, s⟩ ∈ f.entries) (within : (Selector.named name).Within s) :
      Mentions f (.output slot name)
  | creator {slot id : String} {c : Cardinality} {s : Selector} {kind : SelectionKind}
      {ps : List Predicate} {rs : List RankRule} (filled : ⟨slot, .geometry c, s⟩ ∈ f.entries)
      (within : (Selector.query kind ps rs).Within s) (named : .createdBy id ∈ ps) :
      Mentions f (.creator slot id)
  | free {slot : String} {c : Cardinality} {s : Selector} {kind : SelectionKind}
      {ps : List Predicate} {rs : List RankRule} (filled : ⟨slot, .geometry c, s⟩ ∈ f.entries)
      (within : (Selector.query kind ps rs).Within s) (unnamed : ∀ id, .createdBy id ∉ ps) :
      Mentions f (.free slot (.query kind ps rs))

namespace Reference

/-- A reference to whatever exists, which leads to no feature. -/
def IsFree : Reference → Prop
  | free _ _ => True
  | _ => False

/-- A reference leads to a feature. -/
def LeadsTo : Reference → Feature → Prop
  | dep id, g => g.id = id
  | profile name, g => name ∈ g.declaredProfiles
  | pattern id, g => g.id = id ∧ (g.kind = .linearPattern ∨ g.kind = .circularPattern)
  | output _ name, g => name ∈ g.outputs
  | creator _ id, g => g.id = id
  | free _ _, _ => False

theorem LeadsTo.not_isFree {r : Reference} {g : Feature} (h : r.LeadsTo g) : ¬ r.IsFree := by
  cases r with
  | free => exact fun _ => h
  | _ => exact id

end Reference

/-- A feature refers to the feature with an id. -/
def RefersTo (features : List Feature) (f : Feature) (d : String) : Prop :=
  ∃ r, f.Mentions r ∧ ∃ g ∈ features, r.LeadsTo g ∧ g.id = d

/-- A reference stays one when there are more features. -/
theorem RefersTo.mono {features features' : List Feature} (more : features ⊆ features')
    {f : Feature} {d : String} (h : RefersTo features f d) : RefersTo features' f d := by
  obtain ⟨r, mentions, g, hg, leads⟩ := h
  exact ⟨r, mentions, g, more hg, leads⟩

-- ================================================================ slots

/-- A feature has at most one slot for a layout. -/
theorem FeatureKind.count_pattern_le (k : FeatureKind) :
    (k.slots.map Slot.type).count .pattern ≤ 1 := by
  cases k <;> decide

namespace Entry

variable {e : Entry}

theorem pattern?_eq_some {ref : PatternRef} :
    e.pattern? = some ref ↔ ∃ slot, e = ⟨slot, .pattern, ref⟩ := by
  obtain ⟨name, type, value⟩ := e
  cases type <;> simp [pattern?]

theorem mem_profileRefs {name : String} :
    name ∈ e.profileRefs
      ↔ (∃ slot, e = ⟨slot, .profile, Profile.ref name⟩)
        ∨ ∃ slot ps, e = ⟨slot, .sections, ps⟩ ∧ Profile.ref name ∈ ps := by
  have refers : ∀ p : Profile, p.refName? = some name ↔ p = .ref name := by
    intro p
    cases p <;> simp [Profile.refName?]
  obtain ⟨slot, type, value⟩ := e
  cases type with
  | sections =>
    refine ⟨?_, ?_⟩
    · intro h
      exact Or.inr ⟨slot, value, rfl, by simpa [profileRefs, refers] using h⟩
    · intro h
      rcases h with ⟨_, h⟩ | ⟨_, ps, h, listed⟩
      · cases h
      · cases h
        simpa [profileRefs, refers] using listed
  | _ => simp [profileRefs, refers]

theorem selector?_eq_some {s : SelectorSlot} :
    e.selector? = some s ↔ e = ⟨s.name, .geometry s.cardinality, s.selector⟩ := by
  obtain ⟨name, type, value⟩ := e
  obtain ⟨name', c, selector⟩ := s
  cases type <;> simp [selector?]

/-- Among entries of which at most one is a layout, it is found. -/
theorem findSome?_pattern? {es : List Entry} (few : (es.map Entry.type).count .pattern ≤ 1)
    {ref : PatternRef} :
    es.findSome? pattern? = some ref ↔ ∃ slot, ⟨slot, .pattern, ref⟩ ∈ es := by
  induction es with
  | nil => simp
  | cons e es ih =>
    rw [List.map_cons, List.count_cons] at few
    rw [List.findSome?_cons]
    cases found : e.pattern? with
    | some ref' =>
      obtain ⟨slot', rfl⟩ := pattern?_eq_some.1 found
      have no_more : ∀ slot, ⟨slot, .pattern, ref⟩ ∉ es := by
        intro slot member
        have later : 0 < (es.map Entry.type).count .pattern :=
          List.count_pos_iff.2 (List.mem_map_of_mem (f := Entry.type) member)
        simp only [beq_self_eq_true, if_true] at few
        omega
      simp [no_more, eq_comm]
    | none =>
      have other : ∀ slot, e ≠ ⟨slot, .pattern, ref⟩ := by
        intro slot h
        obtain rfl := h
        cases found
      show es.findSome? pattern? = some ref ↔ _
      rw [ih (by omega)]
      simp [fun slot => (other slot).symm]

end Entry

namespace Feature

variable {f : Feature}

theorem isPattern_iff :
    f.isPattern = true ↔ f.kind = .linearPattern ∨ f.kind = .circularPattern := by
  unfold isPattern
  cases f.kind <;> decide

theorem patternRef?_eq_some {ref : PatternRef} :
    f.patternRef? = some ref ↔ ∃ slot, ⟨slot, .pattern, ref⟩ ∈ f.entries := by
  have follows := Payload.types_entries_sublist f.payload
  exact Entry.findSome?_pattern? (Nat.le_trans (follows.count_le _) f.kind.count_pattern_le)

theorem mem_profileRefs {name : String} :
    name ∈ f.profileRefs
      ↔ (∃ slot, ⟨slot, .profile, Profile.ref name⟩ ∈ f.entries)
        ∨ ∃ slot ps, ⟨slot, .sections, ps⟩ ∈ f.entries ∧ Profile.ref name ∈ ps := by
  unfold profileRefs
  rw [List.mem_flatMap]
  simp only [Entry.mem_profileRefs]
  refine ⟨?_, ?_⟩
  · intro h
    obtain ⟨e, he, ⟨slot, rfl⟩ | ⟨slot, ps, rfl, listed⟩⟩ := h
    · exact Or.inl ⟨slot, he⟩
    · exact Or.inr ⟨slot, ps, he, listed⟩
  · intro h
    rcases h with ⟨slot, he⟩ | ⟨slot, ps, he, listed⟩
    · exact ⟨_, he, Or.inl ⟨slot, rfl⟩⟩
    · exact ⟨_, he, Or.inr ⟨slot, ps, rfl, listed⟩⟩

theorem mem_selectorSlots {s : SelectorSlot} :
    s ∈ f.selectorSlots ↔ ⟨s.name, .geometry s.cardinality, s.selector⟩ ∈ f.entries := by
  unfold selectorSlots
  rw [List.mem_filterMap]
  simp only [Entry.selector?_eq_some]
  exact ⟨fun ⟨_, he, e⟩ => e ▸ he, fun he => ⟨_, he, rfl⟩⟩

end Feature

-- ========================================================= the whole list

theorem Anchor.reference?_eq_some {a : Anchor} {field : String} {r : Reference} :
    a.reference? field = some r
      ↔ (∃ name, a = .output name ∧ r = .output field name)
        ∨ ∃ feature, a = .creator feature ∧ r = .creator field feature := by
  cases a <;> simp [reference?, eq_comm]

theorem Anchor.query?_eq_some {a : Anchor} {q : Selector} : a.query? = some q ↔ a = .free q := by
  cases a <;> simp [query?]

namespace SelectorSlot

variable {s : SelectorSlot} {r : Reference}

theorem mem_references :
    r ∈ s.references
      ↔ (∃ name, .output name ∈ s.selector.anchors ∧ r = .output s.name name)
        ∨ (∃ feature, .creator feature ∈ s.selector.anchors ∧ r = .creator s.name feature)
        ∨ ∃ q, s.selector.anchors.findSome? Anchor.query? = some q ∧ r = .free s.name q := by
  unfold references
  simp only [List.mem_append, List.mem_filterMap, Anchor.reference?_eq_some, List.mem_map,
    Option.mem_toList]
  refine ⟨?_, ?_⟩
  · intro h
    rcases h with ⟨_, ha, ⟨name, rfl, rfl⟩ | ⟨feature, rfl, rfl⟩⟩ | ⟨q, hq, rfl⟩
    · exact Or.inl ⟨name, ha, rfl⟩
    · exact Or.inr (Or.inl ⟨feature, ha, rfl⟩)
    · exact Or.inr (Or.inr ⟨q, hq, rfl⟩)
  · intro h
    rcases h with ⟨name, ha, rfl⟩ | ⟨feature, ha, rfl⟩ | ⟨q, hq, rfl⟩
    · exact Or.inl ⟨_, ha, Or.inl ⟨name, rfl, rfl⟩⟩
    · exact Or.inl ⟨_, ha, Or.inr ⟨feature, rfl, rfl⟩⟩
    · exact Or.inr ⟨q, hq, rfl⟩

/-- If a slot has a free query, one is listed. -/
theorem exists_free_mem_references {q : Selector} (h : Anchor.free q ∈ s.selector.anchors) :
    ∃ q', Reference.free s.name q' ∈ s.references := by
  cases first : s.selector.anchors.findSome? Anchor.query? with
  | none =>
    have bound := List.findSome?_eq_none_iff.1 first _ h
    cases bound
  | some q' => exact ⟨q', mem_references.2 (Or.inr (Or.inr ⟨q', first, rfl⟩))⟩

end SelectorSlot

namespace Feature

variable {f : Feature} {r : Reference}

theorem mem_references :
    r ∈ f.references
      ↔ (∃ d ∈ f.deps, r = .dep d) ∨ (∃ name ∈ f.profileRefs, r = .profile name)
        ∨ (∃ ref, f.patternRef? = some ref ∧ r = .pattern ref.name)
        ∨ ∃ s ∈ f.selectorSlots, r ∈ s.references := by
  unfold references
  simp only [List.mem_append, List.mem_map, List.mem_flatMap, Option.mem_toList, or_assoc,
    @eq_comm Reference r]

theorem mem_references_of_slot {slot : String} {c : Cardinality} {s : Selector}
    (filled : ⟨slot, .geometry c, s⟩ ∈ f.entries)
    (listed : r ∈ SelectorSlot.references ⟨slot, c, s⟩) : r ∈ f.references := by
  have member := mem_selectorSlots (s := ⟨slot, c, s⟩).2 filled
  exact mem_references.2 (Or.inr (Or.inr (Or.inr ⟨_, member, listed⟩)))

/-- What a feature lists it mentions. -/
theorem mentions_of_mem_references (h : r ∈ f.references) : f.Mentions r := by
  rcases mem_references.1 h with ⟨d, hd, rfl⟩ | ⟨name, hn, rfl⟩ | ⟨ref, hr, rfl⟩ | ⟨s, hs, hr⟩
  · exact .dep hd
  · rcases mem_profileRefs.1 hn with ⟨slot, filled⟩ | ⟨slot, ps, filled, listed⟩
    · exact .profile filled
    · exact .sections filled listed
  · obtain ⟨slot, filled⟩ := patternRef?_eq_some.1 hr
    exact .pattern filled
  · have filled := mem_selectorSlots.1 hs
    rcases SelectorSlot.mem_references.1 hr with ⟨name, ha, rfl⟩ | ⟨feature, ha, rfl⟩ | ⟨q, hq, rfl⟩
    · exact .output filled (Selector.output_mem_anchors.1 ha)
    · obtain ⟨kind, ps, rs, within, named⟩ := Selector.creator_mem_anchors.1 ha
      exact .creator filled within named
    · obtain ⟨a, ha, found⟩ := List.exists_of_findSome?_eq_some hq
      obtain rfl := Anchor.query?_eq_some.1 found
      obtain ⟨kind, ps, rs, rfl, within, unnamed⟩ := Selector.free_mem_anchors.1 ha
      exact .free filled within unnamed

/-- What a feature mentions it lists, only that one free query may stand for
another. -/
theorem Mentions.listed (h : f.Mentions r) :
    ∃ r' ∈ f.references, r' = r ∨ r.IsFree ∧ r'.IsFree := by
  cases h with
  | @dep d listed => exact ⟨_, mem_references.2 (Or.inl ⟨d, listed, rfl⟩), Or.inl rfl⟩
  | @profile slot name filled =>
    have member := mem_profileRefs.2 (Or.inl ⟨slot, filled⟩)
    exact ⟨_, mem_references.2 (Or.inr (Or.inl ⟨name, member, rfl⟩)), Or.inl rfl⟩
  | @sections slot name ps filled listed =>
    have member := mem_profileRefs.2 (Or.inr ⟨slot, ps, filled, listed⟩)
    exact ⟨_, mem_references.2 (Or.inr (Or.inl ⟨name, member, rfl⟩)), Or.inl rfl⟩
  | @pattern slot ref filled =>
    have found := patternRef?_eq_some.2 ⟨slot, filled⟩
    exact ⟨_, mem_references.2 (Or.inr (Or.inr (Or.inl ⟨ref, found, rfl⟩))), Or.inl rfl⟩
  | @output slot name c s filled within =>
    have anchored := Selector.output_mem_anchors.2 within
    have listed := SelectorSlot.mem_references (s := ⟨slot, c, s⟩).2 (Or.inl ⟨name, anchored, rfl⟩)
    exact ⟨_, mem_references_of_slot filled listed, Or.inl rfl⟩
  | @creator slot feature c s kind ps rs filled within named =>
    have anchored := Selector.creator_mem_anchors.2 ⟨kind, ps, rs, within, named⟩
    have listed := SelectorSlot.mem_references (s := ⟨slot, c, s⟩).2
      (Or.inr (Or.inl ⟨feature, anchored, rfl⟩))
    exact ⟨_, mem_references_of_slot filled listed, Or.inl rfl⟩
  | @free slot c s kind ps rs filled within unnamed =>
    have anchored := Selector.free_mem_anchors.2 ⟨kind, ps, rs, rfl, within, unnamed⟩
    obtain ⟨q, listed⟩ := SelectorSlot.exists_free_mem_references (s := ⟨slot, c, s⟩) anchored
    exact ⟨_, mem_references_of_slot filled listed, Or.inr ⟨trivial, trivial⟩⟩

end Feature
end PartPlan
