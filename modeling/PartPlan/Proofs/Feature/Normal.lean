/-
What normalization does to the parts of a feature that decide about its
neighbours: its id stays, and its selectors are brought to normal form, each
in its own slot.
-/
import PartPlan.Feature.Normal
import PartPlan.Proofs.Feature.Slots

namespace PartPlan

theorem Feature.id_normal {f g : Feature} {table : ParamTable} (h : f.normal table = .ok g) :
    g.id = f.id := by
  obtain ⟨payload, -, h⟩ := Checked.bind_eq_ok.1 h
  obtain rfl := Except.ok.inj h
  rfl

/-- A slot with its selector in normal form. -/
def SelectorSlot.normal (s : SelectorSlot) : SelectorSlot :=
  { s with selector := s.selector.normal }

/-- A slot value in which only a selector is brought to normal form. -/
def SlotType.normalSelector : (t : SlotType) → t.Value → t.Value
  | .geometry _, v => Selector.normal v
  | _, v => v

/-- A feature in which only the selectors are brought to normal form. -/
def Feature.normalSelectors (f : Feature) : Feature :=
  ⟨f.id, f.deps, f.tags, f.kind,
    Payload.mapM (m := Id) (fun _ => SlotType.normalSelector) f.kind.slots f.payload⟩

theorem Entry.selector?_normalSelector (e : Entry) :
    (⟨e.name, e.type, e.type.normalSelector e.value⟩ : Entry).selector?
      = e.selector?.map SelectorSlot.normal := by
  obtain ⟨name, type, value⟩ := e
  cases type <;> rfl

theorem Feature.selectorSlots_normalSelectors (f : Feature) :
    f.normalSelectors.selectorSlots = f.selectorSlots.map SelectorSlot.normal := by
  have entries : f.normalSelectors.entries
      = f.entries.map fun e => ⟨e.name, e.type, e.type.normalSelector e.value⟩ :=
    Payload.entries_mapM_id f.payload
  unfold Feature.selectorSlots
  rw [entries, List.filterMap_map, List.map_filterMap]
  refine List.filterMap_congr fun e _ => ?_
  exact e.selector?_normalSelector

/-- Normalization brings a selector to normal form and makes none of
anything else. -/
theorem Normalizer.selector?_slot {n : Normalizer} {e : Entry} {v : e.type.Value}
    (h : n.slot e.name e.type e.value = .ok v) :
    (⟨e.name, e.type, v⟩ : Entry).selector? = e.selector?.map SelectorSlot.normal := by
  obtain ⟨name, type, value⟩ := e
  cases type with
  | geometry c =>
    obtain rfl := Except.ok.inj h
    rfl
  | _ => rfl

theorem Feature.selectorSlots_normal {f g : Feature} {table : ParamTable}
    (h : f.normal table = .ok g) : g.selectorSlots = f.selectorSlots.map SelectorSlot.normal := by
  obtain ⟨payload, mapped, h⟩ := Checked.bind_eq_ok.1 h
  obtain rfl := Except.ok.inj h
  have pairs := Payload.forall₂_entries_of_mapM mapped
  unfold Feature.selectorSlots Feature.entries
  show (payload.entries f.kind.slots).filterMap Entry.selector? = _
  rw [List.map_filterMap]
  generalize f.payload.entries f.kind.slots = es at pairs ⊢
  generalize payload.entries f.kind.slots = es' at pairs ⊢
  induction pairs with
  | nil => rfl
  | @cons e e' es es' he _ ih =>
    obtain ⟨v, hv, rfl⟩ := he
    rw [List.filterMap_cons, List.filterMap_cons, Normalizer.selector?_slot hv, ih]

end PartPlan
