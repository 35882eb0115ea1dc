/-
The selectors of a feature, looked for in the feature as it is written. A member of the
record holds a selector if its value is one (`Feature.Holds`), and that is told by the
tag: no other type of slot writes a record that is tagged like a selector. So the
selectors that resolution goes through are the members that hold one, none missing and
none invented, under their names and in their order.

Resolution is then one pass over these. It succeeds exactly if each of them is filled
with as many selections as it takes, and it fails for the first that is not.
-/
import PartPlan.Proofs.Document.Feature
import PartPlan.Proofs.Graph.References
import PartPlan.Proofs.Selection.Query

namespace PartPlan

-- ==================================================== what tells a selector

/-- The tag of a tagged record as it is written. -/
def Json.writtenTag? : Json → Option String
  | .obj ((_, .str tag) :: _) => some tag
  | _ => none

theorem Json.writtenTag?_taggedRecord (tag : String) (fields : List (String × Option Json)) :
    (Json.taggedRecord tag fields).writtenTag? = some tag := rfl

/-- The tags of selectors. -/
def Selector.tags : List String := Selector.forms.map Prod.fst

theorem Selector.writtenTag?_toJson (s : Selector) :
    ∃ tag ∈ tags, s.toJson.writtenTag? = some tag := by
  cases s with
  | named name =>
    rw [toJson]
    exact ⟨_, by decide, Json.writtenTag?_taggedRecord _ _⟩
  | query kind ps rs =>
    rw [toJson]
    refine ⟨_, ?_, Json.writtenTag?_taggedRecord _ _⟩
    cases kind <;> decide

/-- What a value is written as has no tag, or another than selectors have. -/
def Json.Untagged (v : Json) : Prop := ∀ tag ∈ v.writtenTag?, tag ∉ Selector.tags

theorem Json.Untagged.ne {v : Json} (h : v.Untagged) (s : Selector) : v ≠ s.toJson := by
  rintro rfl
  obtain ⟨tag, listed, written⟩ := s.writtenTag?_toJson
  exact h tag written listed

theorem Json.untagged_of_none {v : Json} (h : v.writtenTag? = none) : v.Untagged := by
  intro tag written
  rw [h] at written
  cases written

theorem Json.untagged_taggedRecord {tag : String} (other : tag ∉ Selector.tags)
    (fields : List (String × Option Json)) : (Json.taggedRecord tag fields).Untagged := by
  intro tag' written
  obtain rfl : tag = tag' := Option.some.inj written
  exact other

theorem Scalar.untagged (s : Scalar) : s.toJson.Untagged := by
  cases s with
  | value x =>
    rw [toJson, Json.ofFloat]
    split
    · exact Json.untagged_of_none rfl
    · exact Json.untagged_of_none rfl
  | _ =>
    rw [toJson]
    exact Json.untagged_taggedRecord (by decide) _

theorem Axis.untagged (a : Axis) : a.toJson.Untagged := by
  cases a with
  | direction d => exact Json.untagged_of_none rfl
  | vector components => exact Json.untagged_taggedRecord (by decide) _
  | sketchNormal => exact Json.untagged_taggedRecord (by decide) _

theorem Profile.untagged (p : Profile) : p.toJson.Untagged := by
  cases p <;> exact Json.untagged_taggedRecord (by decide) _

/-- Only a slot for geometry is written as a selector is. -/
theorem SlotType.untagged {t : SlotType} (other : ∀ c, t ≠ .geometry c) (v : t.Value) :
    (t.toJson v).Untagged := by
  cases t with
  | axis => exact Axis.untagged v
  | length => exact Scalar.untagged v
  | size => exact Scalar.untagged v
  | count => exact Scalar.untagged v
  | depth =>
    cases v with
    | throughAll => exact Json.untagged_of_none rfl
    | distance s => exact s.untagged
  | sweep =>
    cases v with
    | full => exact Json.untagged_of_none rfl
    | angle a => exact a.untagged
  | profile => exact Profile.untagged v
  | pattern => exact Json.untagged_taggedRecord (by decide) _
  | geometry c => exact absurd rfl (other c)
  | _ => exact Json.untagged_of_none rfl

/-- A selector is known from what it is written as. -/
theorem Selector.toJson_inj {s t : Selector} (same : s.toJson = t.toJson) : s = t := by
  have read := (s.reads .named).read
  rw [same, (t.reads .named).read] at read
  exact (Option.some.inj read).symm

-- =========================================================== written members

/-- The members that the filled slots of a payload are written as. -/
theorem Payload.membersOf_toFields {ss : List Slot} (p : Payload ss) :
    Json.membersOf (p.toFields ss)
      = (p.entries ss).map fun e => (e.name, e.type.toJson e.value) := by
  induction ss with
  | nil => rfl
  | cons s ss ih =>
    obtain ⟨v, p⟩ := p
    rw [toFields, entries, Json.membersOf_cons, ih]
    cases s.content? v with
    | none => rfl
    | some w => rfl

/-- How many selections the selector in a slot stands for: one, but for the edges of a
fillet or a chamfer, which may be several. -/
def FeatureKind.cardinality (k : FeatureKind) (name : String) : Cardinality :=
  if (k = .fillet ∨ k = .chamfer) ∧ name = "edges" then .many else .one

theorem FeatureKind.slots_cardinality (k : FeatureKind) :
    ∀ s ∈ k.slots, (s.type = .geometry .one → k.cardinality s.name = .one)
      ∧ (s.type = .geometry .many → k.cardinality s.name = .many) := by
  cases k <;> decide

/-- The entries have the names and types of their slots, in the order of these. -/
theorem Payload.signatures_entries_sublist {ss : List Slot} (p : Payload ss) :
    ((p.entries ss).map fun e => (e.name, e.type)).Sublist (ss.map fun s => (s.name, s.type)) := by
  induction ss with
  | nil => exact List.Sublist.refl _
  | cons s ss ih =>
    obtain ⟨v, p⟩ := p
    rw [entries, List.map_cons]
    split
    · exact (ih p).cons_cons _
    · exact (ih p).cons _

/-- The member that an entry is written as. -/
def Entry.written (e : Entry) : String × Json := (e.name, e.type.toJson e.value)

namespace Feature

variable {f : Feature} {c : ResolutionContext} {name : String} {s : Selector} {e : Entry}

theorem toJson_eq_members (f : Feature) :
    f.toJson = .obj (Json.membersOf f.headFields ++ f.entries.map Entry.written) := by
  have members : f.toJson
      = .obj (Json.membersOf (f.headFields ++ f.payload.toFields f.kind.slots)) := rfl
  rw [members, Json.membersOf, List.filterMap_append]
  exact congrArg (fun ms => Json.obj (Json.membersOf f.headFields ++ ms))
    f.payload.membersOf_toFields

theorem names_entries_nodup (f : Feature) : (f.entries.map Entry.name).Nodup := by
  have names := f.payload.signatures_entries_sublist.map Prod.fst
  rw [List.map_map, List.map_map] at names
  exact names.nodup (List.nodup_append.1 f.kind.nodup_names).2.1

/-- None of the fields that all features have holds a selector. -/
theorem untagged_of_mem_head {m : String × Json} (h : m ∈ Json.membersOf f.headFields) :
    m.2.Untagged := by
  have items : ∀ (l : List Json), ∀ v ∈ Json.nonEmpty l, v.writtenTag? = none := by
    intro l v hv
    rw [Json.nonEmpty] at hv
    split at hv
    · cases hv
    · obtain rfl := Option.some.inj hv
      rfl
  have untagged : ∀ field ∈ f.headFields, ∀ v ∈ field.2, v.writtenTag? = none := by
    simp only [headFields, List.forall_mem_cons, Option.mem_some_iff, forall_eq']
    exact ⟨rfl, items _, items _, rfl, List.forall_mem_nil _⟩
  obtain ⟨field, member, value⟩ := List.mem_filterMap.1 h
  obtain ⟨v, hv, rfl⟩ := Option.map_eq_some_iff.1 value
  exact Json.untagged_of_none (untagged field member v hv)

/-- A selector among the entries takes as many selections as its name says. -/
theorem cardinality_of_mem_entries {k : Cardinality}
    (member : ⟨name, .geometry k, s⟩ ∈ f.entries) : k = f.kind.cardinality name := by
  have listed := f.payload.signatures_entries_sublist.subset (List.mem_map_of_mem member)
  obtain ⟨slot, hslot, same⟩ := List.mem_map.1 listed
  obtain ⟨rfl, typed⟩ := Prod.mk.inj same
  obtain ⟨one, many⟩ := f.kind.slots_cardinality slot hslot
  cases k with
  | one => exact (one typed).symm
  | many => exact (many typed).symm

/-- An entry is written as a selector if it is one, and then it takes as many selections
as its name says. -/
theorem written_eq_iff (member : e ∈ f.entries) :
    e.written = (name, s.toJson) ↔ e.selector? = some ⟨name, f.kind.cardinality name, s⟩ := by
  rw [Entry.selector?_eq_some]
  constructor
  · intro same
    obtain ⟨name', t, v⟩ := e
    obtain ⟨rfl, value⟩ := Prod.mk.inj same
    by_cases geometry : ∃ k, t = .geometry k
    · obtain ⟨k, rfl⟩ := geometry
      obtain rfl : v = s := Selector.toJson_inj value
      rw [← cardinality_of_mem_entries member]
    · exact absurd value ((SlotType.untagged (not_exists.1 geometry) v).ne s)
  · rintro rfl
    rfl

/-- A member of the record that a feature is written as holds a selector. -/
def Holds (f : Feature) (name : String) (s : Selector) : Prop :=
  ∃ members, f.toJson = .obj members ∧ (name, s.toJson) ∈ members

/-- The selectors that are resolved are those that the feature holds. -/
theorem holds_iff :
    f.Holds name s ↔ ⟨name, f.kind.cardinality name, s⟩ ∈ f.selectorSlots := by
  rw [selectorSlots, List.mem_filterMap]
  constructor
  · rintro ⟨members, written, member⟩
    rw [toJson_eq_members] at written
    rw [← Json.obj.inj written, List.mem_append] at member
    rcases member with head | member
    · exact absurd rfl ((untagged_of_mem_head head).ne s)
    · obtain ⟨e, he, same⟩ := List.mem_map.1 member
      exact ⟨e, he, (written_eq_iff he).1 same⟩
  · rintro ⟨e, he, found⟩
    exact ⟨_, f.toJson_eq_members, List.mem_append_right _
      (List.mem_map.2 ⟨e, he, (written_eq_iff he).2 found⟩)⟩

theorem cardinality_of_mem_selectorSlots {slot : SelectorSlot} (member : slot ∈ f.selectorSlots) :
    slot = ⟨slot.name, f.kind.cardinality slot.name, slot.selector⟩ := by
  rw [← cardinality_of_mem_entries (mem_selectorSlots.1 member)]

/-- The selectors of a feature have different names. -/
theorem names_selectorSlots_nodup (f : Feature) : (f.selectorSlots.map SelectorSlot.name).Nodup := by
  refine List.pairwise_map.2 ((List.pairwise_map.1 f.names_entries_nodup).filterMap _ ?_)
  intro e e' other slot found slot' found'
  rw [Entry.selector?_eq_some.1 found, Entry.selector?_eq_some.1 found'] at other
  exact other

end Feature

-- ============================================================== resolution

namespace Selector

/-- A selection is one that a selector asks for: the one of the name, or one of the
context of the kind that satisfies every predicate. -/
def Admits (c : ResolutionContext) : Selector → Selection → Prop
  | .named name, x => c.named.find? name = some x
  | .query kind ps _, x => x ∈ c.selections ∧ x.kind = kind ∧ ∀ p ∈ ps, p.satisfied x = true

/-- A selector stands for some selections, and for as many as are taken. -/
structure Fills (c : ResolutionContext) (k : Cardinality) (s : Selector) (found : List Selection) :
    Prop where
  resolved : s.resolveAll c = .ok found
  some_found : found ≠ []
  single : k = .one → found.length = 1

variable {c : ResolutionContext} {s : Selector} {k : Cardinality} {found : List Selection}

/-- What a selector stands for is not nothing, and what it asks for. -/
theorem admits_of_resolveAll (h : s.resolveAll c = .ok found) :
    found ≠ [] ∧ ∀ x ∈ found, s.Admits c x := by
  cases s with
  | named name =>
    rw [resolveAll] at h
    split at h
    · next x bound =>
      obtain rfl := Except.ok.inj h
      refine ⟨List.cons_ne_nil _ _, fun y hy => ?_⟩
      rw [List.mem_singleton.1 hy]
      exact bound
    · cases h
  | query kind ps rs =>
    obtain ⟨some_left, kept⟩ := query_eq_ok h
    refine ⟨some_left, fun x hx => ?_⟩
    have candidate := kept.subset hx
    rw [ResolutionContext.candidates, List.mem_filter, List.mem_filter, beq_iff_eq,
      List.all_eq_true] at candidate
    exact ⟨candidate.1.1, candidate.1.2, candidate.2⟩

theorem slot_resolve_eq_ok {name : String} :
    SelectorSlot.resolve c ⟨name, k, s⟩ = .ok found ↔ s.Fills c k found := by
  cases k with
  | one =>
    rw [SelectorSlot.resolve, Checked.bind_eq_ok]
    constructor
    · rintro ⟨x, one, same⟩
      obtain rfl := Except.ok.inj same
      exact ⟨resolve_eq_ok.1 one, List.cons_ne_nil _ _, fun _ => rfl⟩
    · rintro ⟨resolved, -, single⟩
      obtain ⟨x, rfl⟩ := List.length_eq_one_iff.1 (single rfl)
      exact ⟨x, resolve_eq_ok.2 resolved, rfl⟩
  | many =>
    refine ⟨fun resolved => ?_, fun h => h.resolved⟩
    exact ⟨resolved, (admits_of_resolveAll resolved).1, fun several => by cases several⟩

theorem slot_resolve_eq_error {name : String} {e : SelectorError} :
    SelectorSlot.resolve c ⟨name, k, s⟩ = .error e
      ↔ k = .one ∧ s.resolve c = .error e ∨ k = .many ∧ s.resolveAll c = .error e := by
  cases k with
  | one => simp [SelectorSlot.resolve, Checked.bind_eq_error, pure, Except.pure]
  | many => simp [SelectorSlot.resolve]

end Selector

namespace Feature

variable {f : Feature} {c : ResolutionContext} {slot : SelectorSlot}

/-- The selections of one slot with its name. -/
def namedSelections (f : Feature) (c : ResolutionContext) (slot : SelectorSlot) :
    Except SelectorError (String × List Selection) := do
  let selections ← (slot.resolve c).mapError (.inSlot f.id slot.name)
  pure (slot.name, selections)

theorem namedSelections_eq_ok {p : String × List Selection} :
    f.namedSelections c slot = .ok p ↔ ∃ xs, slot.resolve c = .ok xs ∧ p = (slot.name, xs) := by
  rw [namedSelections, Checked.bind_eq_ok]
  simp only [Checked.mapError_eq_ok, pure, Except.pure, Except.ok.injEq, eq_comm (b := p)]

theorem namedSelections_eq_error {e : SelectorError} :
    f.namedSelections c slot = .error e
      ↔ ∃ cause, slot.resolve c = .error cause ∧ e = .inSlot f.id slot.name cause := by
  rw [namedSelections, Checked.bind_eq_error, Checked.mapError_eq_error]
  simp only [pure, Except.pure, reduceCtorEq, and_false, exists_false, or_false, eq_comm]

/-- What is known of the slots is known of the selectors that the feature holds. -/
theorem forall_mem_selectorSlots {P : SelectorSlot → Prop} :
    (∀ slot ∈ f.selectorSlots, P slot)
      ↔ ∀ name s, f.Holds name s → P ⟨name, f.kind.cardinality name, s⟩ := by
  refine ⟨fun all name s held => all _ (holds_iff.1 held), fun all slot member => ?_⟩
  have same := cardinality_of_mem_selectorSlots member
  rw [same]
  exact all _ _ (holds_iff.2 (same ▸ member))

theorem resolves_iff :
    (∃ found, f.resolveSelectors c = .ok found)
      ↔ ∀ name s, f.Holds name s → ∃ xs, s.Fills c (f.kind.cardinality name) xs := by
  have slots : (∃ l, f.selectorSlots.mapM (f.namedSelections c) = .ok l)
      ↔ ∀ slot ∈ f.selectorSlots, ∃ xs, slot.resolve c = .ok xs := by
    refine Checked.exists_mapM_eq_ok.trans (forall₂_congr fun slot _ => ⟨?_, ?_⟩)
    · rintro ⟨p, hp⟩
      obtain ⟨xs, resolved, -⟩ := namedSelections_eq_ok.1 hp
      exact ⟨xs, resolved⟩
    · rintro ⟨xs, resolved⟩
      exact ⟨_, namedSelections_eq_ok.2 ⟨xs, resolved, rfl⟩⟩
  rw [forall_mem_selectorSlots] at slots
  simp only [Selector.slot_resolve_eq_ok] at slots
  rw [← slots]
  constructor
  · rintro ⟨found, resolved⟩
    obtain ⟨l, passed, -⟩ := Checked.bind_eq_ok.1 resolved
    exact ⟨l, passed⟩
  · rintro ⟨l, passed⟩
    exact ⟨_, Checked.bind_eq_ok.2 ⟨l, passed, rfl⟩⟩

/-- Every slot ahead of one is a member ahead of the one that it is written as. -/
theorem written_before {before after : List SelectorSlot}
    (all : f.selectorSlots = before ++ slot :: after) :
    ∃ ahead later, f.toJson = .obj (ahead ++ (slot.name, slot.selector.toJson) :: later)
      ∧ ∀ name (s : Selector), (name, s.toJson) ∈ ahead →
        ⟨name, f.kind.cardinality name, s⟩ ∈ before := by
  obtain ⟨first, rest, entries, rfl, found⟩ := List.filterMap_eq_append_iff.1 all
  obtain ⟨skipped, e, others, rfl, none, here, -⟩ := List.filterMap_eq_cons_iff.1 found
  have listed : ∀ e ∈ first ++ skipped, e ∈ f.entries := by
    intro e he
    rw [entries, ← List.append_assoc]
    exact List.mem_append_left _ he
  refine ⟨Json.membersOf f.headFields ++ (first ++ skipped).map Entry.written,
    others.map Entry.written, ?_, fun name s member => ?_⟩
  · rw [toJson_eq_members, entries, Entry.selector?_eq_some.1 here]
    simp [Entry.written, SlotType.toJson]
  · rcases List.mem_append.1 member with head | member
    · exact absurd rfl ((untagged_of_mem_head head).ne s)
    · obtain ⟨e', he, same⟩ := List.mem_map.1 member
      have selector := (written_eq_iff (listed e' he)).1 same
      rcases List.mem_append.1 he with he | he
      · exact List.mem_filterMap.2 ⟨e', he, selector⟩
      · rw [none e' he] at selector
        cases selector

/-- Resolution of the selectors of a feature. It succeeds exactly if each selector that
the written feature holds stands for as many selections as are taken of it. Then the
names of these are bound, and no others, each to what its selector stands for: some
selections, and one alone but for the edges of a fillet or a chamfer, each of them the
named output or one of the context that satisfies the query. It fails for the first
selector in the record that does not, with the name of the member, the id of the feature
and the code of the failure. -/
theorem resolveSelectors_held (f : Feature) (c : ResolutionContext) :
    ((∃ found, f.resolveSelectors c = .ok found)
      ↔ ∀ name s, f.Holds name s → ∃ xs, s.Fills c (f.kind.cardinality name) xs)
    ∧ (∀ found, f.resolveSelectors c = .ok found →
      (∀ name, name ∈ found.keys ↔ ∃ s, f.Holds name s)
      ∧ ∀ name s, f.Holds name s → ∃ xs, found.find? name = some xs
        ∧ s.Fills c (f.kind.cardinality name) xs ∧ ∀ x ∈ xs, s.Admits c x)
    ∧ ∀ e, f.resolveSelectors c = .error e → ∃ before name, ∃ s : Selector, ∃ after cause,
      f.toJson = .obj (before ++ (name, s.toJson) :: after)
      ∧ (∀ name' (s' : Selector), (name', s'.toJson) ∈ before →
        ∃ xs, s'.Fills c (f.kind.cardinality name') xs)
      ∧ (f.kind.cardinality name = .one ∧ s.resolve c = .error cause
        ∨ f.kind.cardinality name = .many ∧ s.resolveAll c = .error cause)
      ∧ e = .inSlot f.id name cause ∧ e.code = cause.code := by
  refine ⟨resolves_iff, fun found resolved => ?found, fun e failed => ?fails⟩
  case found =>
    obtain ⟨l, passed, same⟩ := Checked.bind_eq_ok.1 resolved
    obtain rfl := Except.ok.inj same
    have names : l.map (·.1) = f.selectorSlots.map SelectorSlot.name :=
      Checked.map_of_mapM_eq_ok passed fun slot _ p hp => by
        obtain ⟨xs, -, rfl⟩ := namedSelections_eq_ok.1 hp
        rfl
    refine ⟨fun name => ?_, fun name s held => ?_⟩
    · rw [SortedMap.mem_keys, SortedMap.contains_ofList, names, List.mem_map]
      constructor
      · rintro ⟨slot, member, rfl⟩
        exact ⟨_, holds_iff.2 (cardinality_of_mem_selectorSlots member ▸ member)⟩
      · rintro ⟨s, held⟩
        exact ⟨_, holds_iff.1 held, rfl⟩
    · obtain ⟨p, hp⟩ := Checked.exists_mapM_eq_ok.1 ⟨l, passed⟩ _ (holds_iff.1 held)
      obtain ⟨xs, resolved, rfl⟩ := namedSelections_eq_ok.1 hp
      have fills := Selector.slot_resolve_eq_ok.1 resolved
      refine ⟨xs, ?_, fills, (Selector.admits_of_resolveAll fills.resolved).2⟩
      refine SortedMap.find?_ofList_of_mem (names ▸ f.names_selectorSlots_nodup) ?_
      exact (Checked.mem_of_mapM_eq_ok passed).2 ⟨_, holds_iff.1 held, hp⟩
  case fails =>
    have stops : f.selectorSlots.mapM (f.namedSelections c) = .error e := by
      rcases Checked.bind_eq_error.1 failed with stops | ⟨l, -, done⟩
      · exact stops
      · cases done
    obtain ⟨before, slot, after, all, here, earlier⟩ := Checked.exists_first_of_mapM_eq_error stops
    obtain ⟨ahead, later, written, known⟩ := written_before all
    have member : slot ∈ f.selectorSlots := all ▸ List.mem_append_right _ List.mem_cons_self
    obtain ⟨cause, refused, rfl⟩ := namedSelections_eq_error.1 here
    rw [cardinality_of_mem_selectorSlots member] at refused
    refine ⟨ahead, slot.name, slot.selector, later, cause, written, fun name s held => ?_,
      Selector.slot_resolve_eq_error.1 refused, rfl, rfl⟩
    obtain ⟨p, hp⟩ := earlier _ (known name s held)
    obtain ⟨xs, resolved, -⟩ := namedSelections_eq_ok.1 hp
    exact ⟨xs, Selector.slot_resolve_eq_ok.1 resolved⟩

end Feature

/-- A body with two edges. -/
def twoEdges : ResolutionContext :=
  .ofSelections [.bare "left" .edge, .bare "right" .edge]

/-- The rounding of all edges. -/
def roundedEdges : Feature := ⟨"round", [], [], .fillet, (.query .edge [] [], .value 1, none, ())⟩

/-- Both edges are rounded, since a fillet takes several. -/
theorem roundedEdges_resolved :
    ∃ found xs, roundedEdges.resolveSelectors twoEdges = .ok found
      ∧ found.find? "edges" = some xs ∧ (Selector.query .edge [] []).Fills twoEdges .many xs := by
  obtain ⟨succeeds, answers, -⟩ := Feature.resolveSelectors_held roundedEdges twoEdges
  have slots : roundedEdges.selectorSlots = [⟨"edges", .many, .query .edge [] []⟩] := rfl
  have both : (Selector.query .edge [] []).resolveAll twoEdges = .ok twoEdges.selections := by
    simp only [Selector.resolveAll, rankBy]
    rfl
  have filled : (Selector.query .edge [] []).Fills twoEdges .many twoEdges.selections :=
    ⟨both, List.cons_ne_nil _ _, fun one => by cases one⟩
  have held : roundedEdges.Holds "edges" (.query .edge [] []) :=
    Feature.holds_iff.2 (slots ▸ List.mem_singleton.2 rfl)
  obtain ⟨found, resolved⟩ := succeeds.2 fun name s held => by
    have listed := Feature.holds_iff.1 held
    rw [slots, List.mem_singleton] at listed
    injection listed with name_eq takes same
    rw [takes, same]
    exact ⟨_, filled⟩
  obtain ⟨xs, bound, fills, -⟩ := (answers found resolved).2 "edges" _ held
  exact ⟨found, xs, resolved, bound, fills⟩

end PartPlan
